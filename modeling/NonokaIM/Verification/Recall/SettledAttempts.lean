import NonokaIM.Verification.Recall.Rows
import NonokaIM.Verification.Recall.Content

/-! Attempts that will submit no further content: they have returned, count as duplicates, or wait
for a save that will find its own row. -/

namespace NonokaIM

open Function

def Attempt.task {ι : Type} (a : Attempt ι) (recipientIDs : List Int) : DeliveryTask :=
  ⟨a.msg, a.msgID, a.topicSeq, recipientIDs, isGroup a.msg⟩

namespace Cluster

open DocumentStore

variable {ι : Type} {cfg : ι → WorkerConfig} {c c' : Cluster ι} {e : ClusterEvent ι}

def withStore (c : Cluster ι) (store : Store) : Cluster ι :=
  { c with world := { c.world with store := store } }

theorem traced_recall (ht : Traced c) (args : RecallArgs) (now : Int) (fault : RecallFault) :
    Traced (c.withStore (recallMessage args now fault c.world.store).2) where
  numbering := ⟨ht.numbering.waiting, ht.numbering.ledger, ht.numbering.log⟩
  queues := ⟨ht.queues.numbered, ht.queues.pending, ht.queues.nodup, ht.queues.fallback⟩
  rows := by
    refine ⟨?_, ?_, ?_⟩
    · intro x hx
      obtain ⟨r, hr, hcopy, huser⟩ := mem_recallMessage_inboxes hx
      rw [← hcopy, ← huser]
      exact ht.rows.inboxes r hr
    · intro x hx
      obtain ⟨r, hr, hcopy⟩ := mem_recallMessage_messages hx
      rw [← hcopy]
      exact ht.rows.messages r hr
    · intro x hx
      obtain ⟨r, hr, hcopy⟩ := mem_recallMessage_mentionInboxes hx
      rw [← hcopy]
      exact ht.rows.mentions r hr

/-! ## Attempts with mention rows have returned -/

/-- The mention rows are written by the last step of a handler. -/
def MentionsReturned (c : Cluster ι) : Prop :=
  ∀ r ∈ c.world.store.mentionInboxes.rows,
    ∃ h, ∃ a, c.attempts[(h : ℕ)]? = some a ∧ r.copy = a.copy ∧ c.stage h = .returned

variable {a : Attempt ι} {h : ℕ}

/-! ## Settled attempts -/

def HasRow (c : Cluster ι) (a : Attempt ι) : Prop :=
  ∃ r ∈ c.world.store.messages.rows, r.topic = a.msg.topic ∧ r.topicSeq = a.topicSeq

def Settled (c : Cluster ι) (h : ℕ) (a : Attempt ι) : Prop :=
  match c.stage h with
  | .numbered => False
  | .queued => (∀ i, h ∉ c.pending i) ∧ (h ∈ c.fallback → c.HasRow a)
  | .saved recipientIDs false => ¬ (a.task recipientIDs).Carries a.msg.topic a.topicSeq
  | .saved _ true => True
  | .returned => True

theorem HasRow.mono (h : c.HasRow a)
    (hsub : c.world.store.messages.rows ⊆ c'.world.store.messages.rows) : c'.HasRow a := by
  obtain ⟨r, hr, hkey⟩ := h
  exact ⟨r, hsub hr, hkey⟩

theorem Settled.keep (hset : c.Settled h a) (hstage : c'.stage h = c.stage h)
    (hpending : c.stage h = .queued → (∀ i, h ∉ c.pending i) → ∀ i, h ∉ c'.pending i)
    (hfallback : c.stage h = .queued → (∀ i, h ∉ c.pending i) → h ∈ c'.fallback → h ∈ c.fallback)
    (hrow : c.HasRow a → c'.HasRow a) : c'.Settled h a := by
  unfold Settled at hset ⊢
  rw [hstage]
  cases hst : c.stage h with
  | numbered =>
    rw [hst] at hset
    exact hset
  | queued =>
    rw [hst] at hset
    exact ⟨hpending hst hset.1, fun hf => hrow (hset.2 (hfallback hst hset.1 hf))⟩
  | saved recipientIDs isDuplicate =>
    rw [hst] at hset
    cases isDuplicate <;> exact hset
  | returned => trivial

theorem Settled.frame (hset : c.Settled h a) (hstage : c'.stage h = c.stage h)
    (hpending : c'.pending = c.pending) (hfallback : c'.fallback = c.fallback)
    (hrow : c.HasRow a → c'.HasRow a) : c'.Settled h a := by
  refine hset.keep hstage ?_ ?_ hrow
  · intro _ hp
    rwa [hpending]
  · intro _ _ hf
    rwa [hfallback] at hf

theorem Settled.of_returned (hret : c.stage h = .returned) : c.Settled h a := by
  unfold Settled
  rw [hret]
  trivial

theorem Settled.not_numbered (hset : c.Settled h a) : c.stage h ≠ .numbered := by
  intro hst
  unfold Settled at hset
  rw [hst] at hset
  exact hset

theorem saveGroupMessage_of_hasRow (hrow : c.HasRow a) (now : Int) (fault : SaveFault) :
    ∀ dup, (saveGroupMessage now a.msg a.msgID a.topicSeq fault c.world.store).1 = .ok dup →
      dup = true := by
  intro dup hok
  obtain ⟨r, hr, htopic, hseq⟩ := hrow
  have hblocked : Blocked messageKeys c.world.store.messages.rows
      (newStoredMessage now a.msg a.msgID a.topicSeq) :=
    ⟨r, hr, conflict_messageKeys.mpr (.inl ⟨htopic, hseq⟩)⟩
  rw [saveGroupMessage_result] at hok
  rcases insertOne_cases c.world.store.messages fault.insert
    (newStoredMessage now a.msg a.msgID a.topicSeq) with ⟨_, hfree, _⟩ | ⟨hins, _⟩ | ⟨hins, _⟩
  · exact absurd hblocked hfree
  · rw [hins] at hok
    cases hok
    rfl
  · rw [hins] at hok
    cases hok

theorem settled_saveOne (hset : c.Settled h a) (hf : h ∈ c.fallback) (now : Int)
    (fault : SaveFault) : (c.saveOne h a now fault).Settled h a := by
  have hrows : c.world.store.messages.rows ⊆
      (c.saveOne h a now fault).world.store.messages.rows := subset_saveGroupMessage
  by_cases hq : c.stage h = .queued
  · have hrow : c.HasRow a := by
      unfold Settled at hset
      rw [hq] at hset
      exact hset.2 hf
    have hstage : (c.saveOne h a now fault).stage h = Stage.ofResult
        ((saveGroupMessage now a.msg a.msgID a.topicSeq fault c.world.store).1.map
          fun isDuplicate => ([], isDuplicate)) := by
      change resolve c.stage h _ h = _
      rw [resolve_apply, if_pos ⟨rfl, hq⟩]
    unfold Settled
    rw [hstage]
    cases hres : (saveGroupMessage now a.msg a.msgID a.topicSeq fault c.world.store).1 with
    | error err => trivial
    | ok dup =>
      rw [saveGroupMessage_of_hasRow hrow now fault dup hres]
      trivial
  · apply hset.keep
    · change resolve c.stage h _ h = _
      rw [resolve_apply, if_neg (by simp [hq])]
    · intro hst
      exact absurd hst hq
    · intro hst
      exact absurd hst hq
    · exact fun hrow => hrow.mono hrows

variable [DecidableEq ι]

theorem returned_step (hs : Step cfg c e c') (ha : c.attempts[h]? = some a)
    (hret : c.stage h = .returned) : c'.attempts[h]? = some a ∧ c'.stage h = .returned := by
  have hother : ∀ {k : ℕ} {st : Stage}, c.stage k ≠ .returned →
      update c.stage k st h = .returned := by
    intro k st hk
    rw [update_of_ne, hret]
    rintro rfl
    exact hk hret
  cases hs with
  | idle | refuse | fallBack => exact ⟨ha, hret⟩
  | accept i record msg msgID fault topicSeq hn =>
    have hne : h ≠ c.attempts.length := Nat.ne_of_lt (List.getElem?_eq_some_iff.mp ha).1
    refine ⟨attempt_kept _ ha, ?_⟩
    dsimp only
    rw [update_of_ne hne]
    exact hret
  | queue k b now fault tx hb hstage hbatched | save k b now fault tx hb hstage hbatched
  | timeout k hstage | finish k b recipientIDs isDuplicate now fault stop hb hstage =>
    exact ⟨ha, hother (by simp [hstage])⟩
  | flush i now fault dup hv =>
    refine ⟨ha, ?_⟩
    dsimp only
    rw [foldl_resolve_apply, if_neg (by simp [hret])]
    exact hret
  | saveOne k b now fault hb hf =>
    refine ⟨ha, ?_⟩
    change resolve c.stage k _ h = .returned
    rw [resolve_apply, if_neg (by simp [hret])]
    exact hret
  | restart i =>
    refine ⟨ha, ?_⟩
    change (if c.runsOn i h then Stage.returned else c.stage h) = .returned
    split
    · rfl
    · exact hret

theorem mentions_step (hs : Step cfg c e c') {r : MentionMessage}
    (hr : r ∈ c'.world.store.mentionInboxes.rows) :
    r ∈ c.world.store.mentionInboxes.rows ∨
      ∃ h, ∃ a, c'.attempts[(h : ℕ)]? = some a ∧ r.copy = a.copy ∧ c'.stage h = .returned := by
  cases hs with
  | finish k b recipientIDs isDuplicate now fault stop hb hstage =>
    have hrows : (c.finish cfg k b recipientIDs isDuplicate now fault stop).world.store = _ :=
      complete_store
    rw [hrows] at hr
    rcases mem_saveMentions hr with hold | ⟨_, ⟨u, _, rfl⟩, _⟩
    · exact .inl hold
    · exact .inr ⟨k, b, hb, rfl, update_self ..⟩
  | save k b now fault tx hb hstage hbatched =>
    have hsame : (NonokaIM.save (cfg b.process) now b.msg b.msgID b.topicSeq fault tx
        c.world.store).2.mentionInboxes = c.world.store.mentionInboxes :=
      save_effect.mentionInboxes
    rw [hsame] at hr
    exact .inl hr
  | flush i now fault dup hv | fallBack i now fault hv =>
    rw [saveGroupMessagesBatch_store] at hr
    exact .inl hr
  | saveOne k b now fault hb hf =>
    have hsame : (c.saveOne k b now fault).world.store.mentionInboxes =
        c.world.store.mentionInboxes := by
      rw [saveOne, saveGroupMessage_store]
    rw [hsame] at hr
    exact .inl hr
  | idle | refuse | accept | queue | timeout | restart => exact .inl hr

theorem mentionsReturned_step (hm : MentionsReturned c) (hs : Step cfg c e c') :
    MentionsReturned c' := by
  intro r hr
  rcases mentions_step hs hr with hold | hnew
  · obtain ⟨h, a, ha, hcopy, hret⟩ := hm r hold
    obtain ⟨ha', hret'⟩ := returned_step hs ha hret
    exact ⟨h, a, ha', hcopy, hret'⟩
  · exact hnew

theorem settled_step (ha : c.attempts[h]? = some a) (hset : c.Settled h a)
    (hs : Step cfg c e c') : c'.Settled h a := by
  have hother : ∀ {k : ℕ} {st : Stage}, k ≠ h → update c.stage k st h = c.stage h :=
    fun hk => update_of_ne (Ne.symm hk) _ _
  have hnumbered : ∀ {k : ℕ}, c.stage k = .numbered → k ≠ h := by
    rintro k hk rfl
    exact hset.not_numbered hk
  cases hs with
  | idle => exact hset
  | refuse => exact hset.frame rfl rfl rfl id
  | accept i record msg msgID fault topicSeq hn =>
    have hne : c.attempts.length ≠ h := Nat.ne_of_gt (List.getElem?_eq_some_iff.mp ha).1
    exact hset.frame (hother hne) rfl rfl id
  | queue k b now fault tx hb hstage hbatched =>
    have hne := hnumbered hstage
    refine hset.keep (hother hne) ?_ (fun _ _ hf => hf) fun hrow => hrow
    intro _ hp i
    dsimp only
    by_cases hi : i = b.process
    · subst i
      rw [update_self]
      simp [hp, Ne.symm hne]
    · rw [update_of_ne hi]
      exact hp i
  | save k b now fault tx hb hstage hbatched =>
    exact hset.frame (hother (hnumbered hstage)) rfl rfl
      fun hrow => hrow.mono save_effect.messages_subset
  | flush i now fault dup hv =>
    have hpend : c.stage h = .queued → (∀ j, h ∉ c.pending j) →
        ∀ j, h ∉ update c.pending i [] j :=
      fun _ hp j hj => hp j ((pending_update_nil c.pending i j).subset hj)
    refine hset.keep ?_ hpend (fun _ _ hf => hf) fun hrow => hrow.mono subset_saveGroupMessagesBatch
    dsimp only
    rw [foldl_resolve_apply, if_neg]
    rintro ⟨hin, hq⟩
    unfold Settled at hset
    rw [hq] at hset
    exact hset.1 i hin
  | fallBack i now fault hv =>
    refine hset.keep rfl ?_ ?_ fun hrow => hrow.mono subset_saveGroupMessagesBatch
    · exact fun _ hp j hj => hp j ((pending_update_nil c.pending i j).subset hj)
    · intro _ hp hf
      exact (List.mem_append.mp hf).resolve_right (hp i)
  | saveOne k b now fault hb hf =>
    by_cases hk : k = h
    · subst k
      rw [ha] at hb
      obtain rfl := Option.some.inj hb
      exact settled_saveOne hset hf now fault
    · refine hset.keep ?_ (fun _ hp => hp) (fun _ _ hf => List.mem_of_mem_erase hf)
        fun hrow => hrow.mono subset_saveGroupMessage
      change resolve c.stage k _ h = c.stage h
      rw [resolve_apply, if_neg fun hkq => hk hkq.1.symm]
  | timeout k hstage =>
    by_cases hk : k = h
    · subst k
      exact .of_returned (update_self ..)
    · exact hset.frame (hother hk) rfl rfl id
  | finish k b recipientIDs isDuplicate now fault stop hb hstage =>
    by_cases hk : k = h
    · subst k
      exact .of_returned (update_self ..)
    · have hrows : (c.finish cfg k b recipientIDs isDuplicate now fault stop).world.store = _ :=
        complete_store
      refine hset.frame (hother hk) rfl rfl ?_
      intro hrow
      apply hrow.mono
      rw [hrows]
      exact List.Subset.refl _
  | restart i =>
    by_cases hruns : c.runsOn i h = true
    · apply Settled.of_returned
      change (if c.runsOn i h then Stage.returned else c.stage h) = .returned
      rw [if_pos hruns]
    · refine hset.keep ?_ ?_ (fun _ _ hf => (List.mem_filter.mp hf).1) fun hrow => hrow
      · change (if c.runsOn i h then Stage.returned else c.stage h) = c.stage h
        rw [if_neg hruns]
      · exact fun _ hp j hj => hp j ((pending_update_nil c.pending i j).subset hj)

end Cluster

end NonokaIM
