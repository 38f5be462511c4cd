import NonokaIM.Verification.Worker.Attempts
import NonokaIM.Verification.Worker.Flush

/-! # Where the stored rows come from

Every row belongs to one attempt, whose seq is free until its insert. -/

namespace NonokaIM.Cluster

open DocumentStore List Function Option

variable {ι : Type} {cfg : ι → WorkerConfig} {c c' : Cluster ι}

/-! ## Rows -/

def Written (c : Cluster ι) (p : Attempt ι → Prop) : Prop :=
  ∃ h a, c.attempts[h]? = some a ∧ p a ∧ ¬ c.Unwritten h

/-- Every row is a copy of an attempt's message, in the collection where it belongs. -/
structure Rows (c : Cluster ι) : Prop where
  inboxes : ∀ r ∈ c.world.store.inboxes.rows,
    c.Written fun a => r.copy = a.copy ∧ Addressed a.msg r.userID
  messages : ∀ r ∈ c.world.store.messages.rows,
    c.Written fun a => r.copy = a.copy ∧ isGroup a.msg = true
  mentions : ∀ r ∈ c.world.store.mentionInboxes.rows,
    ∃ h, ∃ a, c.attempts[(h : ℕ)]? = some a ∧ r.copy = a.copy ∧ isGroup a.msg = true

theorem Written.mono {p : Attempt ι → Prop} (h : c.Written p) (hk : Keeps c c') :
    c'.Written p := by
  obtain ⟨k, a, ha, hp, hun⟩ := h
  obtain ⟨ha', hun'⟩ := hk k a ha
  exact ⟨k, a, ha', hp, fun hk' => hun (hun' hk')⟩

theorem Rows.mono (hr : Rows c) (hk : Keeps c c')
    (hi : ∀ r ∈ c'.world.store.inboxes.rows, r ∈ c.world.store.inboxes.rows ∨
      c'.Written fun a => r.copy = a.copy ∧ Addressed a.msg r.userID)
    (hm : ∀ r ∈ c'.world.store.messages.rows, r ∈ c.world.store.messages.rows ∨
      c'.Written fun a => r.copy = a.copy ∧ isGroup a.msg = true)
    (hmention : ∀ r ∈ c'.world.store.mentionInboxes.rows, r ∈ c.world.store.mentionInboxes.rows ∨
      ∃ h, ∃ a, c.attempts[(h : ℕ)]? = some a ∧ r.copy = a.copy ∧ isGroup a.msg = true) :
    Rows c' where
  inboxes := by
    intro r hrow
    rcases hi r hrow with hold | hnew
    · exact (hr.inboxes r hold).mono hk
    · exact hnew
  messages := by
    intro r hrow
    rcases hm r hrow with hold | hnew
    · exact (hr.messages r hold).mono hk
    · exact hnew
  mentions := by
    intro r hrow
    obtain ⟨k, a, ha, hcopy⟩ := (hmention r hrow).elim (hr.mentions r) id
    exact ⟨k, a, (hk k a ha).1, hcopy⟩

theorem Rows.of_store (hr : Rows c) (hk : Keeps c c')
    (hstore : c'.world.store = c.world.store) : Rows c' := by
  apply hr.mono hk
  · intro r hrow
    rw [hstore] at hrow
    exact .inl hrow
  · intro r hrow
    rw [hstore] at hrow
    exact .inl hrow
  · intro r hrow
    rw [hstore] at hrow
    exact .inl hrow

structure Traced (c : Cluster ι) : Prop where
  numbering : Numbering c
  queues : Queues c
  rows : Rows c

theorem traced_init : Traced (init ι) where
  numbering := numbering_init
  queues := by
    constructor <;> simp [init]
  rows := by
    constructor <;> simp [init]

/-! ## Every step keeps the invariant -/

theorem keeps_accept (c : Cluster ι) (seqs : SeqSystem ι) (a : Attempt ι) :
    Keeps c { c with
      seqs := seqs
      attempts := c.attempts ++ [a]
      stage := update c.stage c.attempts.length .numbered } := by
  intro k b hb
  refine ⟨attempt_kept a hb, ?_⟩
  have hne : k ≠ c.attempts.length := Nat.ne_of_lt (List.getElem?_eq_some_iff.mp hb).1
  rintro (hstage | hpend)
  · dsimp only at hstage
    rw [update_of_ne hne] at hstage
    exact .inl hstage
  · exact .inr hpend

theorem queues_accept (hq : Queues c) (seqs : SeqSystem ι) (a : Attempt ι) :
    Queues { c with
      seqs := seqs
      attempts := c.attempts ++ [a]
      stage := update c.stage c.attempts.length .numbered } := by
  refine ⟨?_, ?_, hq.nodup, ?_⟩
  · intro k hk
    dsimp only at hk
    by_cases hkl : k = c.attempts.length
    · subst k
      exact ⟨a, by simp⟩
    · rw [update_of_ne hkl] at hk
      obtain ⟨b, hb⟩ := hq.numbered k hk
      exact ⟨b, attempt_kept a hb⟩
  · intro i k hk
    obtain ⟨hstage, b, hb, hproc⟩ := hq.pending i k hk
    have hne : k ≠ c.attempts.length := Nat.ne_of_lt (List.getElem?_eq_some_iff.mp hb).1
    refine ⟨?_, b, attempt_kept a hb, hproc⟩
    dsimp only
    rw [update_of_ne hne]
    exact hstage
  · intro k hk
    obtain ⟨hun, b, hb, hgroup⟩ := hq.fallback k hk
    obtain ⟨hb', hun'⟩ := keeps_accept c seqs a k b hb
    exact ⟨fun hk' => hun (hun' hk'), b, hb', hgroup⟩

theorem isGroup_of_batched {cfg : WorkerConfig} {msg : UpstreamMessage}
    (hb : batched cfg msg = true) : isGroup msg = true := by
  simp only [batched, Bool.and_eq_true] at hb
  exact hb.1.1

variable {a : Attempt ι} {now : Int} {h : ℕ}

theorem mem_items {hs : List ℕ} {item : GroupBatchItem} (h : item ∈ c.items hs) :
    ∃ k ∈ hs, ∃ a, c.attempts[k]? = some a ∧ a.item = item := by
  obtain ⟨k, hk, hitem⟩ := mem_filterMap.mp h
  obtain ⟨a, ha, hitem⟩ := map_eq_some_iff.mp hitem
  exact ⟨k, hk, a, ha, hitem⟩

theorem rows_save (hr : Rows c) (hsh : Shrinks c c') (ha : c.attempts[h]? = some a)
    (hun : ¬ c'.Unwritten h)
    (heff : SaveEffect now a.msg a.msgID a.topicSeq c.world.store c'.world.store) : Rows c' := by
  have ha' : c'.attempts[h]? = some a := by
    rw [hsh.attempts]
    exact ha
  apply hr.mono hsh.keeps
  · intro r hrow
    rcases heff.inboxes_new r hrow with hold | ⟨hcopy, haddr, _⟩
    · exact .inl hold
    · exact .inr ⟨h, a, ha', ⟨hcopy, haddr⟩, hun⟩
  · intro r hrow
    rcases heff.messages_new r hrow with hold | ⟨hgroup, rfl, _⟩
    · exact .inl hold
    · exact .inr ⟨h, a, ha', ⟨rfl, hgroup⟩, hun⟩
  · intro r hrow
    rw [heff.mentionInboxes] at hrow
    exact .inl hrow

theorem mem_saveMentions {msg : UpstreamMessage} {msgID : Int} {topicSeq : ℕ} {fault : SaveFault}
    {s : Store} {r : MentionMessage}
    (hr : r ∈ (saveMentions now msg msgID topicSeq fault s).mentionInboxes.rows) :
    r ∈ s.mentionInboxes.rows ∨ (isGroup msg = true ∧
      (∃ u ∈ msg.mentionedUserIDs, r = newMentionMessage now msg msgID topicSeq u) ∧
      ¬ Blocked mentionKeys s.mentionInboxes.rows r) := by
  by_cases hcond : isGroup msg = true ∧ msg.mentionedUserIDs ≠ []
  · have hrows : (saveMentions now msg msgID topicSeq fault s).mentionInboxes =
        (s.mentionInboxes.insertMany fault.insert.refused
          (msg.mentionedUserIDs.map (newMentionMessage now msg msgID topicSeq))).1 := by
      simp only [saveMentions, if_pos hcond, saveMentionInbox, hcond.2, if_false]
      split
      · rfl
      · split <;> rfl
      · rfl
    rw [hrows] at hr
    rcases Collection.mem_insertMany hr with hold | ⟨hnew, hfree⟩
    · exact .inl hold
    · obtain ⟨u, hu, rfl⟩ := mem_map.mp hnew
      exact .inr ⟨hcond.1, ⟨u, hu, rfl⟩, hfree⟩
  · rw [saveMentions, if_neg hcond] at hr
    exact .inl hr

theorem rows_finish (hr : Rows c) (hsh : Shrinks c c') (ha : c.attempts[h]? = some a)
    (now : Int) (fault : SaveFault) (hi : c'.world.store.inboxes = c.world.store.inboxes)
    (hm : c'.world.store.messages = c.world.store.messages)
    (hmention : c'.world.store.mentionInboxes = (saveMentions now a.msg a.msgID a.topicSeq fault
      c.world.store).mentionInboxes) : Rows c' := by
  apply hr.mono hsh.keeps
  · intro r hrow
    rw [hi] at hrow
    exact .inl hrow
  · intro r hrow
    rw [hm] at hrow
    exact .inl hrow
  · intro r hrow
    rw [hmention] at hrow
    rcases mem_saveMentions hrow with hold | ⟨hgroup, ⟨u, _, rfl⟩, _⟩
    · exact .inl hold
    · exact .inr ⟨h, a, ha, rfl, hgroup⟩

theorem Traced.seq_free (ht : Traced c) (ha : c.attempts[h]? = some a) (hun : c.Unwritten h) :
    (∀ r ∈ c.world.store.inboxes.rows, ¬ (r.topic = a.msg.topic ∧ r.topicSeq = a.topicSeq)) ∧
    (∀ r ∈ c.world.store.messages.rows, ¬ (r.topic = a.msg.topic ∧ r.topicSeq = a.topicSeq)) := by
  have hother : ∀ {p : Attempt ι → Prop} {x : Copy}, c.Written p → (∀ b, p b → x = b.copy) →
      ¬ (x.topic = a.msg.topic ∧ x.topicSeq = a.topicSeq) := by
    rintro p x ⟨k, b, hb, hp, hk⟩ hx ⟨htopic, hseq⟩
    rw [hx b hp] at htopic hseq
    have hkh := ht.numbering.eq_of_seq hb ha htopic hseq
    rw [hkh] at hk
    exact hk hun
  refine ⟨?_, ?_⟩
  · intro r hr
    exact hother (x := r.copy) (ht.rows.inboxes r hr) fun b hb => hb.1
  · intro r hr
    exact hother (x := r.copy) (ht.rows.messages r hr) fun b hb => hb.1

variable [DecidableEq ι]

theorem mem_enqueue {pending : ι → List ℕ} {i j : ι} {k : ℕ}
    (hk : k ∈ update pending i (pending i ++ [h]) j) : k ∈ pending j ∨ (k = h ∧ j = i) := by
  by_cases hj : j = i
  · subst j
    rw [update_self, mem_append, mem_singleton] at hk
    exact hk.imp id fun hkh => ⟨hkh, rfl⟩
  · rw [update_of_ne hj] at hk
    exact .inl hk

theorem keeps_queue (i : ι) (hs : c.stage h = .numbered) :
    Keeps c { c with
      stage := update c.stage h .queued
      pending := update c.pending i (c.pending i ++ [h]) } := by
  intro k b hb
  refine ⟨hb, ?_⟩
  rintro (hstage | ⟨j, hj⟩)
  · exact .inl (of_update_numbered (by simp) hstage).2
  · rcases mem_enqueue hj with hold | ⟨rfl, _⟩
    · exact .inr ⟨j, hold⟩
    · exact .inl hs

theorem queues_queue (hq : Queues c) (ha : c.attempts[h]? = some a)
    (hs : c.stage h = .numbered) (hb : batched (cfg a.process) a.msg = true) :
    Queues { c with
      stage := update c.stage h .queued
      pending := update c.pending a.process (c.pending a.process ++ [h]) } := by
  have hnot : ∀ i, h ∉ c.pending i := fun i hin => (hq.pending i h hin).1 hs
  refine ⟨?_, ?_, ?_, ?_⟩
  · intro k hk
    exact hq.numbered k (of_update_numbered (by simp) hk).2
  · intro i k hk
    rcases mem_enqueue hk with hold | ⟨rfl, rfl⟩
    · obtain ⟨hstage, hatt⟩ := hq.pending i k hold
      exact ⟨fun hn => hstage (of_update_numbered (by simp) hn).2, hatt⟩
    · exact ⟨by simp, a, ha, rfl, isGroup_of_batched hb⟩
  · intro i
    dsimp only
    by_cases hi : i = a.process
    · subst i
      rw [update_self]
      refine nodup_append.mpr ⟨hq.nodup _, by simp, ?_⟩
      intro x hx y hy
      rw [mem_singleton.mp hy]
      intro hxh
      exact hnot _ (hxh ▸ hx)
    · rw [update_of_ne hi]
      exact hq.nodup i
  · intro k hk
    obtain ⟨hun, b, hb, hgroup⟩ := hq.fallback k hk
    exact ⟨fun hk' => hun ((keeps_queue a.process hs k b hb).2 hk'), b, hb, hgroup⟩

theorem Queues.flushed (hq : Queues c) {i : ι} (hh : h ∈ c.pending i)
    (hstage : ∀ k, c'.stage k = .numbered → c.stage k = .numbered)
    (hpend : c'.pending = update c.pending i []) : ¬ c'.Unwritten h := by
  obtain ⟨hnum, a, ha, hproc, _⟩ := hq.pending i h hh
  intro hk
  rcases hk with hk | ⟨j, hj⟩
  · exact hnum (hstage h hk)
  · rw [hpend] at hj
    by_cases hji : j = i
    · subst j
      simp at hj
    · rw [update_of_ne hji] at hj
      obtain ⟨_, b, hb, hproc', _⟩ := hq.pending j h hj
      rw [ha] at hb
      obtain rfl := some.inj hb
      exact hji (hproc'.symm.trans hproc)

theorem queues_fallBack (hq : Queues c) (i : ι) (w : World) :
    Queues { c with
      world := w
      pending := update c.pending i []
      fallback := c.fallback ++ c.pending i } := by
  have hold : Queues { c with world := w, pending := update c.pending i [] } :=
    hq.shrink ⟨rfl, fun _ h => h, pending_update_nil _ i⟩ fun _ h => h
  refine ⟨hold.numbered, hold.pending, hold.nodup, ?_⟩
  intro k hk
  rcases mem_append.mp hk with hin | hnew
  · exact hold.fallback k hin
  · obtain ⟨_, a, ha, _, hgroup⟩ := hq.pending i k hnew
    exact ⟨hq.flushed hnew (fun _ h => h) rfl, a, ha, hgroup⟩

theorem rows_batch (hq : Queues c) (hr : Rows c) (hsh : Shrinks c c') {i : ι} {fault : SaveFault}
    (hpend : c'.pending = update c.pending i []) (hstore : c'.world.store =
      (saveGroupMessagesBatch now (c.items (c.pending i)) fault c.world.store).2) : Rows c' := by
  rw [saveGroupMessagesBatch_store] at hstore
  apply hr.mono hsh.keeps
  · intro r hrow
    rw [hstore] at hrow
    exact .inl hrow
  · intro r hrow
    rw [hstore] at hrow
    rcases Collection.mem_insertMany hrow with hold | ⟨hnew, _⟩
    · exact .inl hold
    · obtain ⟨item, hitem, rfl⟩ := mem_map.mp hnew
      obtain ⟨k, hk, a, ha, rfl⟩ := mem_items hitem
      obtain ⟨_, b, hb, _, hgroup⟩ := hq.pending i k hk
      rw [ha] at hb
      obtain rfl := some.inj hb
      exact .inr ⟨k, a, hsh.attempts ▸ ha, ⟨rfl, hgroup⟩, hq.flushed hk hsh.stage hpend⟩
  · intro r hrow
    rw [hstore] at hrow
    exact .inl hrow

theorem traced_step (ht : Traced c) (hs : Step cfg c e c') : Traced c' := by
  have hnum := numbering_step ht.numbering hs
  have hq := ht.queues
  have hr := ht.rows
  cases hs with
  | idle => exact ht
  | refuse i record msg msgID fault err hn =>
    have hsh : Shrinks c { c with seqs := (c.seqs.nextSeq i msg.topic fault).2 } :=
      ⟨rfl, fun _ h => h, fun _ => List.Sublist.refl _⟩
    exact ⟨hnum, hq.shrink hsh fun _ h => h, hr.of_store hsh.keeps rfl⟩
  | accept i record msg msgID fault topicSeq hn =>
    exact ⟨hnum, queues_accept hq _ _, hr.of_store (keeps_accept c _ _) rfl⟩
  | queue h a now fault tx ha hstage hb =>
    exact ⟨hnum, queues_queue hq ha hstage hb, hr.of_store (keeps_queue _ hstage) rfl⟩
  | save h a now fault tx ha hstage hb =>
    have hnot : ∀ i, h ∉ c.pending i := fun i hin => (hq.pending i h hin).1 hstage
    have hsh : Shrinks c { c with
        world := { c.world with store := (NonokaIM.save (cfg a.process) now a.msg a.msgID
          a.topicSeq fault tx c.world.store).2 }
        stage := update c.stage h (Stage.ofResult (NonokaIM.save (cfg a.process) now
          a.msg a.msgID a.topicSeq fault tx c.world.store).1) } :=
      ⟨rfl, fun k hk => (of_update_numbered (Stage.ofResult_ne_numbered _) hk).2,
        fun _ => List.Sublist.refl _⟩
    refine ⟨hnum, hq.shrink hsh fun _ h => h, rows_save hr hsh ha ?_ save_effect⟩
    intro hun
    rcases hun with hun | ⟨i, hin⟩
    · exact (of_update_numbered (Stage.ofResult_ne_numbered _) hun).1 rfl
    · exact hnot i hin
  | flush i now fault dup hv =>
    have hsh : Shrinks c { c with
        world := { c.world with store :=
          (saveGroupMessagesBatch now (c.items (c.pending i)) fault c.world.store).2 }
        pending := update c.pending i []
        stage := (c.pending i).foldl (fun stage h => resolve stage h (.ok dup)) c.stage } :=
      ⟨rfl, fun k hk => of_resolved_numbered hk, pending_update_nil _ i⟩
    exact ⟨hnum, hq.shrink hsh fun _ h => h, rows_batch hq hr hsh rfl rfl⟩
  | fallBack i now fault hv =>
    have hsh : Shrinks c { c with
        world := { c.world with store :=
          (saveGroupMessagesBatch now (c.items (c.pending i)) fault c.world.store).2 }
        pending := update c.pending i []
        fallback := c.fallback ++ c.pending i } :=
      ⟨rfl, fun _ h => h, pending_update_nil _ i⟩
    exact ⟨hnum, queues_fallBack hq i _, rows_batch hq hr hsh rfl rfl⟩
  | saveOne h a now fault ha hf =>
    have hsh : Shrinks c (c.saveOne h a now fault) := by
      refine ⟨rfl, ?_, fun _ => List.Sublist.refl _⟩
      intro k hk
      have hk' : [h].foldl (fun stage h => resolve stage h _) c.stage k = .numbered := hk
      exact of_resolved_numbered hk'
    obtain ⟨hun, b, hb, hgroup⟩ := hq.fallback h hf
    rw [ha] at hb
    obtain rfl := some.inj hb
    have heff : SaveEffect now a.msg a.msgID a.topicSeq c.world.store
        (c.saveOne h a now fault).world.store :=
      saveGroupMessage_effect (isGroup_iff.mp hgroup)
    exact ⟨hnum, hq.shrink hsh fun k hk => mem_of_mem_erase hk,
      rows_save hr hsh ha (fun hk => hun (hsh.unwritten hk)) heff⟩
  | timeout h hstage =>
    have hsh : Shrinks c { c with stage := update c.stage h .returned } :=
      ⟨rfl, fun k hk => (of_update_numbered (by simp) hk).2, fun _ => List.Sublist.refl _⟩
    exact ⟨hnum, hq.shrink hsh fun _ h => h, hr.of_store hsh.keeps rfl⟩
  | finish h a recipientIDs isDuplicate now fault stop ha hstage =>
    have hsh : Shrinks c (c.finish cfg h a recipientIDs isDuplicate now fault stop) :=
      ⟨rfl, fun k hk => (of_update_numbered (by simp) hk).2, fun _ => List.Sublist.refl _⟩
    have hstore : (c.finish cfg h a recipientIDs isDuplicate now fault stop).world.store = _ :=
      complete_store
    refine ⟨hnum, hq.shrink hsh fun _ h => h, rows_finish hr hsh ha now fault.mention ?_ ?_ ?_⟩
    · rw [hstore]
    · rw [hstore]
    · rw [hstore]
  | restart i =>
    have hsh : Shrinks c (c.restart i) := by
      refine ⟨rfl, ?_, pending_update_nil _ i⟩
      intro k hk
      simp only [restart] at hk
      split at hk
      · cases hk
      · exact hk
    exact ⟨hnum, hq.shrink hsh fun k hk => (mem_filter.mp hk).1, hr.of_store hsh.keeps rfl⟩

theorem traced_run (cfg : ι → WorkerConfig) (es : List (ClusterEvent ι)) :
    Traced ((init ι).run cfg es) := by
  have hstep : ∀ (c : Cluster ι) e, Traced c → Traced (c.step cfg e) :=
    fun c e ht => traced_step ht (step_cases cfg c e)
  exact GuardedRun.invariant_run_all hstep es traced_init

end NonokaIM.Cluster
