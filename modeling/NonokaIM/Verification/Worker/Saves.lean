import NonokaIM.Model.MsgWorker

/-! What each save writes, and what its result says about it. The equations leave the sender cache
open. -/

namespace NonokaIM

open DocumentStore GroupBatchItem Collection Store Fate

theorem map_eq_ok {α β : Type} {x : Except String α} {f : α → β} {b : β} :
    x.map f = .ok b ↔ ∃ a, x = .ok a ∧ f a = b := by
  cases x <;> simp [Except.map]

theorem cacheMessageSender_eq (s : Store) (fails : Bool) (t : String) (q : ℕ) (u : Int) :
    s.cacheMessageSender fails t q u =
      { s with senderCache := (s.cacheMessageSender fails t q u).senderCache } := by
  cases fails <;> rfl

theorem cacheSenders_eq (fails : ℕ → Bool) (items : List GroupBatchItem) (s : Store) :
    cacheSenders fails items s =
      { s with senderCache := (cacheSenders fails items s).senderCache } := by
  induction items generalizing fails s with
  | nil => rfl
  | cons item items ih =>
    rw [cacheSenders, ih, cacheMessageSender_eq]

def p2pInsert (now : Int) (msg : UpstreamMessage) (msgID : Int) (topicSeq : ℕ) (fault : SaveFault)
    (s : Store) (receiverID : Int) : Collection inboxKeys × BulkReply :=
  insertBulk s.inboxes fault.insert (p2pRows now msg msgID topicSeq receiverID)

variable {now : Int} {msg : UpstreamMessage} {msgID : Int} {topicSeq : ℕ} {fault : SaveFault}
  {s : Store}

theorem saveP2PMessage_store {uid1 uid2 : Int}
    (hx : extractUserIDsFromP2PTopic msg.topic = .ok (uid1, uid2)) :
    (saveP2PMessage now msg msgID topicSeq fault s).2 =
      { s with
        inboxes := (p2pInsert now msg msgID topicSeq fault s (receiverOf msg uid1 uid2)).1
        senderCache := (saveP2PMessage now msg msgID topicSeq fault s).2.senderCache } := by
  simp only [saveP2PMessage, hx, p2pInsert]
  split
  · rw [cacheMessageSender_eq]
  · split
    · rw [cacheMessageSender_eq]
    · rfl
  · rfl

theorem saveP2PMessage_result {uid1 uid2 : Int}
    (hx : extractUserIDsFromP2PTopic msg.topic = .ok (uid1, uid2)) :
    (saveP2PMessage now msg msgID topicSeq fault s).1 =
      match (p2pInsert now msg msgID topicSeq fault s (receiverOf msg uid1 uid2)).2.verdict with
      | some dup => .ok ([receiverOf msg uid1 uid2, msg.senderID], dup)
      | none => .error ("insert p2p inbox messages: " ++ fault.text) := by
  simp only [saveP2PMessage, hx, p2pInsert]
  split
  · rename_i h
    rw [h]
    rfl
  · rename_i fates h
    rw [h]
    by_cases had : allDuplicate fates = true <;> simp [BulkReply.verdict, had]
  · rename_i h
    rw [h]
    rfl

theorem saveP2PMessage_error {e : String} (hx : extractUserIDsFromP2PTopic msg.topic = .error e) :
    saveP2PMessage now msg msgID topicSeq fault s = (.error e, s) := by
  simp only [saveP2PMessage, hx]

/-! ## Group messages -/

theorem saveGroupMessage_store :
    (saveGroupMessage now msg msgID topicSeq fault s).2 =
      { s with
        messages := (insertOne s.messages fault.insert (newStoredMessage now msg msgID topicSeq)).1
        senderCache := (saveGroupMessage now msg msgID topicSeq fault s).2.senderCache } := by
  simp only [saveGroupMessage]
  split
  · rw [cacheMessageSender_eq]
  · rfl
  · rfl

theorem saveGroupMessage_result :
    (saveGroupMessage now msg msgID topicSeq fault s).1 =
      match (insertOne s.messages fault.insert (newStoredMessage now msg msgID topicSeq)).2 with
      | .ok => .ok false
      | .duplicate => .ok true
      | .failed => .error ("insert group message: " ++ fault.text) := by
  simp only [saveGroupMessage]
  split <;> simp_all

theorem mem_saveGroupMessage {x : StoredMessage}
    (hx : x ∈ (saveGroupMessage now msg msgID topicSeq fault s).2.messages.rows) :
    x ∈ s.messages.rows ∨
      (x = newStoredMessage now msg msgID topicSeq ∧ ¬ Blocked messageKeys s.messages.rows x) := by
  rw [saveGroupMessage_store] at hx
  rcases mem_tryInsert hx with hold | ⟨rfl, hfree⟩
  · exact .inl hold
  · exact .inr ⟨rfl, hfree⟩

theorem subset_saveGroupMessage :
    s.messages.rows ⊆ (saveGroupMessage now msg msgID topicSeq fault s).2.messages.rows := by
  rw [saveGroupMessage_store]
  exact subset_insertOne _ _ _

theorem stored_or_blocked_saveGroupMessage {dup : Bool}
    (h : (saveGroupMessage now msg msgID topicSeq fault s).1 = .ok dup) :
    newStoredMessage now msg msgID topicSeq ∈
        (saveGroupMessage now msg msgID topicSeq fault s).2.messages.rows ∨
      Blocked messageKeys (saveGroupMessage now msg msgID topicSeq fault s).2.messages.rows
        (newStoredMessage now msg msgID topicSeq) := by
  rw [saveGroupMessage_result] at h
  rw [saveGroupMessage_store]
  rcases insertOne_cases s.messages fault.insert (newStoredMessage now msg msgID topicSeq) with
    ⟨_, hfree, hins⟩ | ⟨_, hblocked, hins⟩ | ⟨hr, _⟩
  · refine .inl ?_
    simp [hins, rows_insert_of_not_blocked hfree]
  · refine .inr ?_
    simpa [hins] using hblocked
  · rw [hr] at h
    cases h

theorem saveSystemMessage_store {target : Int} (hx : extractSystemTarget msg.topic = .ok target) :
    (saveSystemMessage now msg msgID topicSeq fault s).2 =
      { s with
        inboxes := (insertOne s.inboxes fault.insert
          (newInboxMessage now msg msgID topicSeq target false)).1
        senderCache := (saveSystemMessage now msg msgID topicSeq fault s).2.senderCache } := by
  simp only [saveSystemMessage, hx]
  split
  · rw [cacheMessageSender_eq]
  · rfl
  · rfl

theorem saveSystemMessage_result {target : Int} (hx : extractSystemTarget msg.topic = .ok target) :
    (saveSystemMessage now msg msgID topicSeq fault s).1 =
      match (insertOne s.inboxes fault.insert
        (newInboxMessage now msg msgID topicSeq target false)).2 with
      | .ok => .ok ([target], false)
      | .duplicate => .ok ([target], true)
      | .failed => .error ("insert system inbox message: " ++ fault.text) := by
  simp only [saveSystemMessage, hx]
  split <;> simp_all

theorem saveSystemMessage_error {e : String} (hx : extractSystemTarget msg.topic = .error e) :
    saveSystemMessage now msg msgID topicSeq fault s = (.error e, s) := by
  simp only [saveSystemMessage, hx]

/-! ## Transactions -/

def Recordable (now : Int) (ev : MessageEvent) (outbox : Collection outboxKeys) : Prop :=
  ¬ ev.eventID.toList.all isSpace ∧ ¬ Blocked outboxKeys outbox.rows (.new now ev)
  deriving Decidable

section

variable {α : Type} {ev : MessageEvent} {tx : TxFault} {label : String} {isDuplicate : α → Bool}
  {save : Store → Except String α × Store}

/-- The collections are as before the transaction, and success means that the save found a
duplicate. -/
def RolledBack (isDuplicate : α → Bool) (s : Store) (saved result : Except String α × Store) :
    Prop :=
  ∃ cache, result.2 = { s with senderCache := cache } ∧
    ∀ a, result.1 = .ok a → saved.1 = .ok a ∧ isDuplicate a = true

/-- A transaction is rolled back, or it adds the event to what the save wrote. -/
def Transacts (now : Int) (ev : MessageEvent) (isDuplicate : α → Bool) (s : Store)
    (saved result : Except String α × Store) : Prop :=
  RolledBack isDuplicate s saved result ∨
    ∃ a outbox, saved.1 = .ok a ∧ isDuplicate a = false ∧
      Recordable now ev saved.2.agentOutbox ∧
      result.2 = { saved.2 with agentOutbox := outbox } ∧ ∀ b, result.1 = .ok b → b = a

variable (now ev tx label isDuplicate save s) in
theorem withAgentEvent_spec :
    RolledBack isDuplicate s (save s) (withAgentEvent now ev tx label isDuplicate save s) ∨
    (∃ a, (save s).1 = .ok a ∧ isDuplicate a = false ∧
      Recordable now ev (save s).2.agentOutbox ∧ tx.commit.applied = true ∧
      (withAgentEvent now ev tx label isDuplicate save s).2 =
        { (save s).2 with agentOutbox := (save s).2.agentOutbox.insert (.new now ev) } ∧
      (withAgentEvent now ev tx label isDuplicate save s).1 =
        if tx.commit.reported then .error (label ++ tx.text) else .ok a) := by
  unfold withAgentEvent
  cases hsession : tx.session with
  | true => exact .inl ⟨s.senderCache, by simp⟩
  | false =>
    rcases hsave : save s with ⟨_ | a, s₁⟩
    · exact .inl ⟨s₁.senderCache, by simp [rollback]⟩
    · cases hdup : isDuplicate a with
      | true => exact .inl ⟨s₁.senderCache, by simp [hdup, rollback]⟩
      | false =>
        simp only [hdup, Bool.false_eq_true, if_false, enqueueAgentEvent]
        by_cases hblank : ev.eventID.toList.all isSpace = true
        · exact .inl ⟨s₁.senderCache, by simp [hblank, rollback]⟩
        simp only [hblank]
        rcases insertOne_cases s₁.agentOutbox tx.outbox (.new now ev) with
          ⟨hr, hfree, hins⟩ | ⟨hr, _, _⟩ | ⟨hr, _⟩
        · cases hcommit : tx.commit with
          | failed =>
            exact .inl ⟨s₁.senderCache, by
              simp [hr, CallFault.applied, CallFault.reported, rollback]⟩
          | none | lost =>
            exact .inr ⟨a, rfl, hdup, ⟨hblank, hfree⟩, rfl,
              by simp [hr, hins, CallFault.applied], by simp [hr]⟩
        · exact .inl ⟨s₁.senderCache, by simp [hr, rollback]⟩
        · exact .inl ⟨s₁.senderCache, by simp [hr, rollback]⟩

theorem withAgentEvent_cases :
    Transacts now ev isDuplicate s (save s)
      (withAgentEvent now ev tx label isDuplicate save s) := by
  rcases withAgentEvent_spec now s ev tx label isDuplicate save with
    hroll | ⟨a, ha, hdup, hrec, _, hstore, hresult⟩
  · exact .inl hroll
  · refine .inr ⟨a, _, ha, hdup, hrec, hstore, ?_⟩
    intro b hb
    rw [hresult] at hb
    split at hb
    · cases hb
    · exact (Except.ok.inj hb).symm

theorem withAgentEvent_none_of_duplicate {a : α} (ha : (save s).1 = .ok a)
    (hdup : isDuplicate a = true) :
    (withAgentEvent now ev .none label isDuplicate save s).1 = .ok a ∧
      (withAgentEvent now ev .none label isDuplicate save s).2 = s.rollback (save s).2 := by
  unfold withAgentEvent
  rcases hsave : save s with ⟨_ | b, s₁⟩
  · rw [hsave] at ha
    cases ha
  · obtain rfl : b = a := by simpa [hsave] using ha
    simp [TxFault.none, hdup]

theorem withAgentEvent_none_of_recordable {a : α} (ha : (save s).1 = .ok a)
    (hdup : isDuplicate a = false) (hrec : Recordable now ev (save s).2.agentOutbox) :
    (withAgentEvent now ev .none label isDuplicate save s).1 = .ok a := by
  unfold withAgentEvent
  rcases hsave : save s with ⟨_ | b, s₁⟩
  · rw [hsave] at ha
    cases ha
  · obtain rfl : b = a := by simpa [hsave] using ha
    rw [hsave] at hrec
    have hinsert : insertOne s₁.agentOutbox .none (.new now ev) = _ :=
      insertOne_none_of_not_blocked hrec.2
    simp [hdup, enqueueAgentEvent, hrec.1, hinsert, TxFault.none, CallFault.reported]

end

theorem saveP2PMessageWithAgentEvent_cases (ev : MessageEvent) (tx : TxFault) :
    Transacts now ev Prod.snd s (saveP2PMessage now msg msgID topicSeq fault s)
      (saveP2PMessageWithAgentEvent now msg msgID topicSeq ev fault tx s) :=
  withAgentEvent_cases

theorem saveGroupMessageWithAgentEvent_cases (ev : MessageEvent) (tx : TxFault) :
    Transacts now ev id s (saveGroupMessage now msg msgID topicSeq fault s)
      (saveGroupMessageWithAgentEvent now msg msgID topicSeq ev fault tx s) :=
  withAgentEvent_cases

section

variable {items : List GroupBatchItem}

theorem saveGroupMessagesBatch_store :
    (saveGroupMessagesBatch now items fault s).2 =
      { s with
        messages := (insertBulk s.messages fault.insert (items.map (row now))).1
        senderCache := (saveGroupMessagesBatch now items fault s).2.senderCache } := by
  unfold saveGroupMessagesBatch
  by_cases hnil : items = []
  · subst items
    rfl
  · simp only [hnil, if_false]
    split
    · rw [cacheSenders_eq]
    · split <;> rfl
    · rfl

theorem subset_saveGroupMessagesBatch :
    s.messages.rows ⊆ (saveGroupMessagesBatch now items fault s).2.messages.rows := by
  rw [saveGroupMessagesBatch_store]
  exact subset_insertMany _ _ _

theorem count_stored_lt {fates : List Fate} (h : ∃ f ∈ fates, f ≠ stored) :
    fates.count .stored < fates.length := by
  apply Nat.lt_of_le_of_ne List.count_le_length
  intro heq
  obtain ⟨f, hf, hne⟩ := h
  exact hne (List.count_eq_length.mp heq f hf).symm

theorem batchVerdict_spec {dup : Bool}
    (h : batchVerdict items.length (saveGroupMessagesBatch now items fault s).1 = some dup) :
    s.messages.insertMany fault.insert.refused (items.map (row now)) =
        s.messages.insertAll (items.map (row now)) ∧
      dup = (s.messages.insertAll (items.map (row now))).2.any (· ≠ .stored) := by
  by_cases hnil : items = []
  · subst items
    have hdup : false = dup := by simpa [batchVerdict, saveGroupMessagesBatch] using h
    exact ⟨rfl, hdup.symm⟩
  · simp only [saveGroupMessagesBatch, hnil, if_false] at h
    cases hr : (insertBulk s.messages fault.insert (items.map (row now))).2 with
    | ok =>
      simp only [hr, batchVerdict, Nat.lt_irrefl, if_false] at h
      apply insertBulk_verdict
      rw [hr]
      exact h
    | bulk fates =>
      simp only [hr] at h
      by_cases had : allDuplicate fates = true
      · simp only [had, if_true, batchVerdict] at h
        apply insertBulk_verdict
        rw [hr, BulkReply.verdict, had, if_pos rfl]
        exact h
      · have hfates := insertBulk_bulk hr
        simp only [had, Bool.false_eq_true, if_false, batchVerdict] at h
        have hall : ∀ f ∈ fates, f = stored := by
          by_contra hex
          simp only [not_forall] at hex
          obtain ⟨f, hf, hne⟩ := hex
          have hlt := count_stored_lt ⟨f, hf, hne⟩
          rw [hfates, length_fates, List.length_map, ← hfates] at hlt
          simp [hlt] at h
        have hno : refused ∉
            (s.messages.insertMany fault.insert.refused (items.map (row now))).2 := by
          intro hmem
          rw [← hfates] at hmem
          have hstored := hall _ hmem
          cases hstored
        have heq := insertMany_eq_insertAll hno
        rw [heq] at hfates
        rw [← hfates]
        refine ⟨heq, ?_⟩
        have hany : fates.any (· ≠ .stored) = false := by simpa using hall
        rw [hany]
        split at h
        · cases h
        · exact (Option.some.inj h).symm
    | failed =>
      simp [hr, batchVerdict] at h

theorem batchVerdict_of_refused {fault : SaveFault} {i : ℕ} (hi : i < items.length)
    (hr : fault.insert.refused i = true) :
    batchVerdict items.length (saveGroupMessagesBatch now items fault s).1 = none := by
  cases hv : batchVerdict items.length (saveGroupMessagesBatch now items fault s).1 with
  | none => rfl
  | some dup =>
    have hlen : i < (items.map (row now)).length := by simpa using hi
    have hmem : refused ∈ _ :=
      mem_fates_of_refused (c := s.messages) hlen hr
    rw [(batchVerdict_spec hv).1] at hmem
    exact absurd hmem not_refused_mem_insertAll

end

theorem saveMentions_store (now : Int) (msg : UpstreamMessage) (msgID : Int) (topicSeq : ℕ)
    (fault : SaveFault) (s : Store) :
    saveMentions now msg msgID topicSeq fault s =
      { s with mentionInboxes :=
          (saveMentions now msg msgID topicSeq fault s).mentionInboxes } := by
  simp only [saveMentions, saveMentionInbox]
  repeat' split
  all_goals rfl

theorem backupTopicSeq_store (topic : String) (seq : ℕ) (fault : CallFault) (s : Store) :
    (backupTopicSeq topic seq fault s).2 =
      { s with topicSeqs := (backupTopicSeq topic seq fault s).2.topicSeqs } := by
  simp only [backupTopicSeq]
  split <;> rfl

theorem complete_store {cfg : WorkerConfig} {now : Int} {msg : UpstreamMessage} {msgID : Int}
    {topicSeq : ℕ} {recipientIDs : List Int} {isDuplicate : Bool} {fault : CompleteFault}
    {pool : PoolSelect} {w : World} :
    (complete cfg now msg msgID topicSeq recipientIDs isDuplicate fault pool w).2.store =
      { w.store with
        mentionInboxes := (saveMentions now msg msgID topicSeq fault.mention w.store).mentionInboxes
        topicSeqs := (complete cfg now msg msgID topicSeq recipientIDs isDuplicate fault pool
          w).2.store.topicSeqs } := by
  cases isDuplicate with
  | true =>
    simp only [complete, if_true]
    rw [saveMentions_store]
  | false =>
    simp only [complete, Bool.false_eq_true, if_false, upsertConversations]
    rw [saveMentions_store]
    cases pool <;> dsimp only <;> rw [backupTopicSeq_store]

end NonokaIM
