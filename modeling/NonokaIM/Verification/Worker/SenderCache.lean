import NonokaIM.Model.SenderCache
import NonokaIM.Verification.Worker.Saves

/-! # The sender cache and the stored rows -/

namespace NonokaIM

open DocumentStore GuardedRun List Collection Except

/-! ## Rows and cache -/

def Store.HasSender (s : Store) (topic : String) (topicSeq : ℕ) (senderID : Int) : Prop :=
  (∃ r ∈ s.inboxes.rows, r.topic = topic ∧ r.topicSeq = topicSeq ∧ r.senderID = senderID) ∨
  (∃ r ∈ s.mentionInboxes.rows, r.topic = topic ∧ r.topicSeq = topicSeq ∧ r.senderID = senderID) ∨
  ∃ r ∈ s.messages.rows, r.topic = topic ∧ r.topicSeq = topicSeq ∧ r.senderID = senderID
  deriving Decidable

/-- Every answer of `GetMessageSender` is the sender of a stored row. -/
def SenderCoherent (g : GatewayStorage) : Prop :=
  ∀ env topic topicSeq senderID, (getMessageSender env topic topicSeq g).1 = .ok senderID →
      g.HasSender topic topicSeq senderID

def Store.CacheBacked (s : Store) : Prop :=
  ∀ topic topicSeq senderID, s.senderCache topic topicSeq = some senderID →
    s.HasSender topic topicSeq senderID

variable {s s' : Store} {topic : String} {topicSeq : ℕ} {senderID : Int}

theorem Store.HasSender.mono (h : s.HasSender topic topicSeq senderID)
    (hinboxes : s.inboxes.rows ⊆ s'.inboxes.rows)
    (hmentions : s.mentionInboxes.rows ⊆ s'.mentionInboxes.rows)
    (hmessages : s.messages.rows ⊆ s'.messages.rows) : s'.HasSender topic topicSeq senderID := by
  obtain ⟨r, hr, hrow⟩ | ⟨r, hr, hrow⟩ | ⟨r, hr, hrow⟩ := h
  · exact .inl ⟨r, hinboxes hr, hrow⟩
  · exact .inr (.inl ⟨r, hmentions hr, hrow⟩)
  · exact .inr (.inr ⟨r, hmessages hr, hrow⟩)

theorem hasSender_of_findSender {source : SenderSource}
    (h : findSender s topic topicSeq source = some senderID) :
    s.HasSender topic topicSeq senderID := by
  cases source <;>
    · obtain ⟨r, hr, rfl⟩ := Option.map_eq_some_iff.mp h
      have hrow := find?_some hr
      rw [decide_eq_true_eq] at hrow
      have hmem := mem_of_find?_eq_some hr
      first
        | exact .inl ⟨r, hmem, hrow.1, hrow.2, rfl⟩
        | exact .inr (.inl ⟨r, hmem, hrow.1, hrow.2, rfl⟩)
        | exact .inr (.inr ⟨r, hmem, hrow.1, hrow.2, rfl⟩)

theorem hasSender_of_firstAnswer {env : SenderEnv} {lastErr : FindError}
    {sources : List SenderSource}
    (h : firstAnswer lastErr (sources.map (findSenderIn env s topic topicSeq)) = .ok senderID) :
    s.HasSender topic topicSeq senderID := by
  induction sources generalizing lastErr with
  | nil => cases h
  | cons source sources ih =>
    rw [map_cons] at h
    cases hanswer : findSenderIn env s topic topicSeq source with
    | error e =>
      rw [hanswer] at h
      exact ih h
    | ok u =>
      rw [hanswer] at h
      obtain rfl : u = senderID := ok.inj h
      unfold findSenderIn at hanswer
      split at hanswer
      · cases hanswer
      · cases hanswer
      · cases hanswer
      · rename_i hfind
        cases hanswer
        exact hasSender_of_findSender hfind

theorem Store.CacheBacked.of_rows (h : s.CacheBacked) (hcache : s'.senderCache = s.senderCache)
    (hinboxes : s.inboxes.rows ⊆ s'.inboxes.rows)
    (hmentions : s.mentionInboxes.rows ⊆ s'.mentionInboxes.rows)
    (hmessages : s.messages.rows ⊆ s'.messages.rows) : s'.CacheBacked := by
  intro t q u hu
  rw [hcache] at hu
  exact (h t q u hu).mono hinboxes hmentions hmessages

theorem cacheBacked_cacheMessageSender (h : s.CacheBacked) (fails : Bool) :
    (s.cacheMessageSender fails topic topicSeq senderID).CacheBacked ↔
      (fails = false → s.HasSender topic topicSeq senderID) := by
  cases fails with
  | true => exact iff_of_true h (fun hf => nomatch hf)
  | false =>
    constructor
    · intro hbacked _
      exact hbacked topic topicSeq senderID (if_pos ⟨rfl, rfl⟩)
    · intro hrow t q u hu
      change (if t = topic ∧ q = topicSeq then some senderID else s.senderCache t q) =
        some u at hu
      split at hu
      · rename_i heq
        obtain ⟨rfl, rfl⟩ := heq
        obtain rfl := Option.some.inj hu
        exact hrow rfl
      · exact h t q u hu

theorem senderCoherent_iff_cacheBacked {g : GatewayStorage} : SenderCoherent g ↔ g.CacheBacked := by
  constructor
  · intro h t q u hu
    refine h {} t q u ?_
    simp only [getMessageSender, hu]
    rfl
  · intro h env t q u hu
    unfold getMessageSender at hu
    split at hu
    · rename_i v hcached
      obtain rfl : v = u := ok.inj hu
      split at hcached
      · cases hcached
      · exact h t q v hcached
    · split at hu
      · rename_i hfound
        obtain rfl := ok.inj hu
        exact hasSender_of_firstAnswer hfound
      · cases hu
      · cases hu

theorem cacheBacked_getMessageSender {g : GatewayStorage} (h : g.CacheBacked) (env : SenderEnv)
    (topic : String) (topicSeq : ℕ) :
    (getMessageSender env topic topicSeq g).2.CacheBacked := by
  unfold getMessageSender
  split
  · exact h
  split
  · rename_i hfound
    exact (cacheBacked_cacheMessageSender h _).mpr fun _ => hasSender_of_firstAnswer hfound
  · exact h
  · exact h

/-! ## Saves without a transaction -/

variable {now : Int} {msg : UpstreamMessage} {msgID : Int} {fault : SaveFault} {uid1 uid2 : Int}

variable {dup : Bool} {receiverID : Int}

theorem saveP2PMessage_eq (hx : extractUserIDsFromP2PTopic msg.topic = .ok (uid1, uid2))
    {r : Collection inboxKeys × BulkReply}
    (hins : p2pInsert now msg msgID topicSeq fault s (receiverOf msg uid1 uid2) = r) :
    saveP2PMessage now msg msgID topicSeq fault s =
      match r.2.verdict with
      | some dup =>
        (.ok ([receiverOf msg uid1 uid2, msg.senderID], dup),
          ({ s with inboxes := r.1 } : Store).cacheMessageSender (fault.cacheFails 0) msg.topic
            topicSeq msg.senderID)
      | none =>
        (.error ("insert p2p inbox messages: " ++ fault.text), { s with inboxes := r.1 }) := by
  subst hins
  simp only [saveP2PMessage, hx, p2pInsert]
  split
  · rename_i hr
    rw [hr]
    rfl
  · rename_i fates hr
    rw [hr, BulkReply.verdict]
    split <;> rfl
  · rename_i hr
    rw [hr]
    rfl

def FreshCopies (s : Store) (rows : List InboxMessage) : Prop :=
  (∀ r ∈ rows, ¬ Blocked inboxKeys s.inboxes.rows r) ∧
    rows.Pairwise fun a b => ¬ Conflict inboxKeys a b

theorem p2pInsert_verdict_iff :
    (p2pInsert now msg msgID topicSeq fault s receiverID).2.verdict = some dup ↔
      fault.insert.Accepts 2 ∧
        (dup = false ↔ FreshCopies s (p2pRows now msg msgID topicSeq receiverID)) ∧
        (dup = false → fault.insert.concern = false) := by
  rw [p2pInsert, insertBulk_verdict_iff, FreshCopies, ← any_not_stored_insertAll]
  refine and_congr_right fun _ => and_congr_left fun _ => ?_
  generalize ((s.inboxes.insertAll _).2.any _) = stale
  cases dup <;> cases stale <;> simp

theorem exists_p2pInsert_verdict (haccepts : fault.insert.Accepts 2)
    (hconcern : FreshCopies s (p2pRows now msg msgID topicSeq receiverID) →
      fault.insert.concern = false) :
    ∃ dup, (p2pInsert now msg msgID topicSeq fault s receiverID).2.verdict = some dup := by
  by_cases hfresh : FreshCopies s (p2pRows now msg msgID topicSeq receiverID)
  · exact ⟨false, p2pInsert_verdict_iff.mpr
      ⟨haccepts, iff_of_true rfl hfresh, fun _ => hconcern hfresh⟩⟩
  · exact ⟨true, p2pInsert_verdict_iff.mpr
      ⟨haccepts, iff_of_false Bool.noConfusion hfresh, fun hf => nomatch hf⟩⟩

theorem p2pRows_sender {r : InboxMessage} (h : r ∈ p2pRows now msg msgID topicSeq receiverID) :
    r.topic = msg.topic ∧ r.topicSeq = topicSeq ∧ r.senderID = msg.senderID := by
  rcases mem_cons.mp h with rfl | h
  · exact ⟨rfl, rfl, rfl⟩
  · obtain rfl := mem_singleton.mp h
    exact ⟨rfl, rfl, rfl⟩

theorem hasSender_p2pInsert
    (hv : (p2pInsert now msg msgID topicSeq fault s receiverID).2.verdict = some dup) :
    ({ s with inboxes := (p2pInsert now msg msgID topicSeq fault s receiverID).1 } :
        Store).HasSender msg.topic topicSeq msg.senderID ↔
      s.HasSender msg.topic topicSeq msg.senderID ∨
        ∃ r ∈ p2pRows now msg msgID topicSeq receiverID, ¬ Blocked inboxKeys s.inboxes.rows r := by
  have hins : (p2pInsert now msg msgID topicSeq fault s receiverID).1 =
      (s.inboxes.insertAll (p2pRows now msg msgID topicSeq receiverID)).1 :=
    congrArg Prod.fst (insertBulk_verdict hv).1
  rw [hins]
  constructor
  · rintro (⟨r, hr, hrow⟩ | hrow)
    · rcases mem_insertMany hr with hold | ⟨hnew, hfree⟩
      · exact .inl (.inl ⟨r, hold, hrow⟩)
      · exact .inr ⟨r, hnew, hfree⟩
    · exact .inl (.inr hrow)
  · rintro (hrow | ⟨r, hr, hfree⟩)
    · exact hrow.mono (subset_insertMany _ _ _) (Subset.refl _) (Subset.refl _)
    · rcases mem_or_conflict_insertAll hr hfree with hmem | ⟨x, hx, hmem, -, -⟩
      · exact .inl ⟨r, hmem, p2pRows_sender hr⟩
      · exact .inl ⟨x, hmem, p2pRows_sender hx⟩

theorem cacheBacked_inboxes (h : s.CacheBacked) {c : Collection inboxKeys}
    (hsub : s.inboxes.rows ⊆ c.rows) : ({ s with inboxes := c } : Store).CacheBacked :=
  h.of_rows rfl hsub (Subset.refl _) (Subset.refl _)

theorem cacheBacked_messages (h : s.CacheBacked) {c : Collection messageKeys}
    (hsub : s.messages.rows ⊆ c.rows) : ({ s with messages := c } : Store).CacheBacked :=
  h.of_rows rfl (Subset.refl _) (Subset.refl _) hsub

theorem cacheBacked_saveGroupMessage (h : s.CacheBacked) :
    (saveGroupMessage now msg msgID topicSeq fault s).2.CacheBacked := by
  have hrows := cacheBacked_messages h (subset_insertOne s.messages fault.insert
    (newStoredMessage now msg msgID topicSeq))
  unfold saveGroupMessage
  dsimp only
  split
  · rename_i hok
    refine (cacheBacked_cacheMessageSender hrows _).mpr fun _ => ?_
    exact .inr (.inr ⟨_, mem_insertOne hok, rfl, rfl, rfl⟩)
  · exact hrows
  · exact hrows

theorem cacheBacked_saveSystemMessage (h : s.CacheBacked) :
    (saveSystemMessage now msg msgID topicSeq fault s).2.CacheBacked := by
  unfold saveSystemMessage
  split
  · exact h
  rename_i target _
  have hrows := cacheBacked_inboxes h (subset_insertOne s.inboxes fault.insert
    (newInboxMessage now msg msgID topicSeq target false))
  dsimp only
  split
  · rename_i hok
    refine (cacheBacked_cacheMessageSender hrows _).mpr fun _ => ?_
    exact .inl ⟨_, mem_insertOne hok, rfl, rfl, rfl⟩
  · exact hrows
  · exact hrows

theorem cacheBacked_saveMentionInbox (h : s.CacheBacked) (mentionedUserIDs : List Int) :
    (saveMentionInbox now msg msgID topicSeq mentionedUserIDs fault s).2.CacheBacked := by
  have hrows : ({ s with mentionInboxes := (insertBulk s.mentionInboxes fault.insert
      (mentionedUserIDs.map (newMentionMessage now msg msgID topicSeq))).1 } : Store).CacheBacked :=
    h.of_rows rfl (Subset.refl _) (subset_insertMany _ _ _) (Subset.refl _)
  unfold saveMentionInbox
  split
  · exact h
  dsimp only
  split
  · exact hrows
  · split
    · exact hrows
    · exact hrows
  · exact hrows

/-! ## Batches -/

variable {items : List GroupBatchItem}

theorem cacheBacked_cacheSenders (h : s.CacheBacked) (fails : ℕ → Bool)
    (hitems : ∀ item ∈ items, s.HasSender item.msg.topic item.topicSeq item.msg.senderID) :
    (cacheSenders fails items s).CacheBacked := by
  induction items generalizing s fails with
  | nil => exact h
  | cons item items ih =>
    have hfirst := (cacheBacked_cacheMessageSender h (fails 0)).mpr
      fun _ => hitems item mem_cons_self
    refine ih hfirst _ fun i hi => ?_
    rw [cacheMessageSender_eq]
    exact hitems i (mem_cons_of_mem item hi)

theorem cacheBacked_saveGroupMessagesBatch (h : s.CacheBacked) :
    (saveGroupMessagesBatch now items fault s).2.CacheBacked := by
  have hrows := cacheBacked_messages h (c := (insertBulk s.messages fault.insert
    (items.map (GroupBatchItem.row now))).1) (subset_insertMany _ _ _)
  unfold saveGroupMessagesBatch
  split
  · exact h
  dsimp only
  split
  · rename_i hok
    refine cacheBacked_cacheSenders hrows _ fun item hitem => ?_
    -- nothing but `ok` means that every row of the batch is stored
    refine .inr (.inr ⟨item.row now, ?_, rfl, rfl, rfl⟩)
    change _ ∈ (s.messages.insertMany fault.insert.refused _).1.rows
    rw [rows_of_all_stored (insertBulk_ok_fates hok)]
    exact mem_append_right _ (mem_map_of_mem hitem)
  · split
    · exact hrows
    · exact hrows
  · exact hrows

theorem cacheBacked_saveEach (h : s.CacheBacked) (faults : ℕ → SaveFault) :
    (saveEach now faults items s).2.CacheBacked := by
  induction items generalizing s faults with
  | nil => exact h
  | cons item items ih => exact ih (cacheBacked_saveGroupMessage h) _

theorem cacheBacked_flush (h : s.CacheBacked) (fault : FlushFault) :
    (flush now items fault s).2.CacheBacked := by
  have hbatch : (saveGroupMessagesBatch now items fault.batch s).2.CacheBacked :=
    cacheBacked_saveGroupMessagesBatch h
  unfold flush
  dsimp only
  split
  · exact hbatch
  · exact cacheBacked_saveEach hbatch _

theorem cacheBacked_expireSender (h : s.CacheBacked) (topic : String) (topicSeq : ℕ) :
    (s.expireSender topic topicSeq).CacheBacked := by
  intro t q u hu
  change (if t = topic ∧ q = topicSeq then none else s.senderCache t q) = some u at hu
  split at hu
  · cases hu
  · exact h t q u hu

/-! ## Transactions -/

def Commits (now : Int) (ev : MessageEvent) (tx : TxFault) (outbox : Collection outboxKeys) :
    Prop :=
  Recordable now ev outbox ∧ tx.outbox.Accepts 1 ∧ tx.outbox.concern = false ∧
    tx.commit.applied = true

section

variable {α : Type} {ev : MessageEvent} {tx : TxFault} {label : String} {isDuplicate : α → Bool}
  {save : Store → Except String α × Store}

theorem withAgentEvent_of_session (h : tx.session = true) :
    (withAgentEvent now ev tx label isDuplicate save s).2 = s := by
  simp [withAgentEvent, h]

theorem withAgentEvent_rollback (hsession : tx.session = false)
    (hroll : ∀ a, (save s).1 = .ok a → isDuplicate a = false →
      ¬ Commits now ev tx (save s).2.agentOutbox) :
    (withAgentEvent now ev tx label isDuplicate save s).2 = s.rollback (save s).2 := by
  unfold withAgentEvent
  rw [if_neg (by rw [hsession]; exact Bool.false_ne_true)]
  rcases hsave : save s with ⟨_ | a, s₁⟩
  · rfl
  rw [hsave] at hroll
  cases hdup : isDuplicate a with
  | true => simp [hdup]
  | false =>
    have hcommits := hroll a rfl hdup
    simp only [hdup, Bool.false_eq_true, if_false, enqueueAgentEvent]
    by_cases hblank : ev.eventID.toList.all isSpace = true
    · simp [hblank, Store.rollback]
    simp only [hblank]
    cases hr : (insertOne s₁.agentOutbox tx.outbox (.new now ev)).2 with
    | ok =>
      obtain ⟨haccepts, hconcern, hfree⟩ := insertOne_ok_iff.mp hr
      have happlied : tx.commit.applied = false := by
        by_contra happlied
        rw [Bool.not_eq_false] at happlied
        exact hcommits ⟨⟨hblank, hfree⟩, haccepts, hconcern, happlied⟩
      simp [happlied, Store.rollback]
    | duplicate | failed => simp [Store.rollback]

theorem withAgentEvent_commit {a : α} (hsession : tx.session = false) (ha : (save s).1 = .ok a)
    (hdup : isDuplicate a = false) (hcommits : Commits now ev tx (save s).2.agentOutbox) :
    (withAgentEvent now ev tx label isDuplicate save s).2 =
      { (save s).2 with
        agentOutbox := (insertOne (save s).2.agentOutbox tx.outbox (.new now ev)).1 } := by
  obtain ⟨⟨hblank, hfree⟩, haccepts, hconcern, happlied⟩ := hcommits
  unfold withAgentEvent
  rw [if_neg (by rw [hsession]; exact Bool.false_ne_true)]
  rcases hsave : save s with ⟨_ | b, s₁⟩
  · rw [hsave] at ha
    cases ha
  · obtain rfl : b = a := by simpa [hsave] using ha
    rw [hsave] at hfree
    have hr := insertOne_ok_iff.mpr ⟨haccepts, hconcern, hfree⟩
    simp [hdup, enqueueAgentEvent, hblank, hr, happlied]

end

end NonokaIM
