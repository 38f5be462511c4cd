import NonokaIM.Verification.Worker.Saves

/-! # Readers of a message that is saved alone -/

namespace NonokaIM

open DocumentStore Collection List Except

variable {now : Int} {msg : UpstreamMessage} {msgID : Int} {topicSeq : ℕ} {s : Store}

def Holds (s : Store) (msg : UpstreamMessage) (userID : Int) : Prop :=
  ∃ r ∈ s.inboxes.rows, r.userID = userID ∧ r.topic = msg.topic ∧
    r.senderID = msg.senderID ∧ r.clientMsgID = msg.clientMsgID
  deriving Decidable

def HoldsGroup (s : Store) (msg : UpstreamMessage) : Prop :=
  ∃ r ∈ s.messages.rows, r.topic = msg.topic ∧
    r.senderID = msg.senderID ∧ r.clientMsgID = msg.clientMsgID

def Durable (s : Store) (msg : UpstreamMessage) : Prop :=
  match parseTopicType msg.topic with
  | .p2p => ∀ uid1 uid2, extractUserIDsFromP2PTopic msg.topic = .ok (uid1, uid2) →
      Holds s msg uid1 ∧ Holds s msg uid2
  | .group => HoldsGroup s msg
  | .system => ∀ target, extractSystemTarget msg.topic = .ok target → Holds s msg target
  | .unknown => True

/-- The user has the message, or gets the row `r` of it. -/
def Covered (s : Store) (msg : UpstreamMessage) (rows : List InboxMessage) (userID : Int) : Prop :=
  Holds s msg userID ∨
    ∃ r ∈ rows, r.userID = userID ∧ ¬ Blocked inboxKeys s.inboxes.rows r

/-- Whatever fails, a save without an error leaves a store with the property. -/
def Ensures {φ α : Type} (save : φ → Except String α × Store) (P : Store → Prop) : Prop :=
  ∀ fault r, (save fault).1 = .ok r → P (save fault).2

theorem Holds.mono {s s' : Store} (hsub : s.inboxes.rows ⊆ s'.inboxes.rows) {userID : Int}
    (h : Holds s msg userID) : Holds s' msg userID := by
  obtain ⟨r, hr, h⟩ := h
  exact ⟨r, hsub hr, h⟩

theorem HoldsGroup.mono {s s' : Store} (hsub : s.messages.rows ⊆ s'.messages.rows)
    (h : HoldsGroup s msg) : HoldsGroup s' msg := by
  obtain ⟨r, hr, h⟩ := h
  exact ⟨r, hsub hr, h⟩

theorem mem_p2pRows {receiverID : Int} {r : InboxMessage}
    (hr : r ∈ p2pRows now msg msgID topicSeq receiverID) :
    (r.userID = receiverID ∨ r.userID = msg.senderID) ∧ r.topic = msg.topic ∧
      r.senderID = msg.senderID ∧ r.clientMsgID = msg.clientMsgID := by
  simp only [p2pRows, mem_cons, not_mem_nil, or_false] at hr
  rcases hr with rfl | rfl
  · exact ⟨.inl rfl, rfl, rfl, rfl⟩
  · exact ⟨.inr rfl, rfl, rfl, rfl⟩

theorem holds_insertAll_iff {receiverID userID : Int} {s' : Store} (hs' : s'.inboxes =
      (s.inboxes.insertAll (p2pRows now msg msgID topicSeq receiverID)).1) :
    Holds s' msg userID ↔ Covered s msg (p2pRows now msg msgID topicSeq receiverID) userID := by
  constructor
  · rintro ⟨r, hr, hu, hsame⟩
    rw [hs'] at hr
    rcases mem_insertMany hr with hold | ⟨hnew, hfree⟩
    · exact .inl ⟨r, hold, hu, hsame⟩
    · exact .inr ⟨r, hnew, hu, hfree⟩
  · intro h
    rcases h with h | ⟨r, hr, hu, hfree⟩
    · apply h.mono
      rw [hs']
      exact subset_insertMany _ _ _
    · rcases mem_or_conflict_insertAll hr hfree with hmem | ⟨x, hx, hmem, _, hc⟩
      · exact ⟨r, hs' ▸ hmem, hu, (mem_p2pRows hr).2⟩
      · have hxu : x.userID = userID := (conflict_inboxKeys.mp hc).1.trans hu
        exact ⟨x, hs' ▸ hmem, hxu, (mem_p2pRows hx).2⟩

section

variable {uid1 uid2 : Int}

theorem saveP2PMessage_ok {fault : SaveFault} {r : List Int × Bool}
    (hx : extractUserIDsFromP2PTopic msg.topic = .ok (uid1, uid2))
    (h : (saveP2PMessage now msg msgID topicSeq fault s).1 = .ok r) :
    (saveP2PMessage now msg msgID topicSeq fault s).2.inboxes =
        (s.inboxes.insertAll (p2pRows now msg msgID topicSeq (receiverOf msg uid1 uid2))).1 ∧
      r = ([receiverOf msg uid1 uid2, msg.senderID],
        (s.inboxes.insertAll (p2pRows now msg msgID topicSeq
          (receiverOf msg uid1 uid2))).2.any (· ≠ .stored)) := by
  rw [saveP2PMessage_result hx] at h
  cases hv : (p2pInsert now msg msgID topicSeq fault s (receiverOf msg uid1 uid2)).2.verdict with
  | none =>
    rw [hv] at h
    cases h
  | some dup =>
    rw [hv] at h
    obtain ⟨hall, hdup⟩ := insertBulk_verdict hv
    rw [saveP2PMessage_store hx]
    refine ⟨congrArg Prod.fst hall, ?_⟩
    rw [← hdup]
    exact (ok.inj h).symm

theorem saveP2PMessage_none_ok (hx : extractUserIDsFromP2PTopic msg.topic = .ok (uid1, uid2)) :
    (saveP2PMessage now msg msgID topicSeq .none s).1 =
      .ok ([receiverOf msg uid1 uid2, msg.senderID],
        (s.inboxes.insertAll (p2pRows now msg msgID topicSeq
          (receiverOf msg uid1 uid2))).2.any (· ≠ .stored)) := by
  have hv : (p2pInsert now msg msgID topicSeq .none s (receiverOf msg uid1 uid2)).2.verdict = _ :=
    insertBulk_none_verdict
  rw [saveP2PMessage_result hx, hv]

theorem holds_saveP2PMessage_iff (hx : extractUserIDsFromP2PTopic msg.topic = .ok (uid1, uid2)) :
    Ensures (saveP2PMessage now msg msgID topicSeq · s)
        (fun s' => Holds s' msg uid1 ∧ Holds s' msg uid2) ↔
      Covered s msg (p2pRows now msg msgID topicSeq (receiverOf msg uid1 uid2)) uid1 ∧
      Covered s msg (p2pRows now msg msgID topicSeq (receiverOf msg uid1 uid2)) uid2 := by
  constructor
  · intro h
    have hok : (saveP2PMessage now msg msgID topicSeq .none s).1 = _ := saveP2PMessage_none_ok hx
    have hins := (saveP2PMessage_ok hx hok).1
    obtain ⟨h1, h2⟩ := h _ _ hok
    exact ⟨(holds_insertAll_iff hins).mp h1, (holds_insertAll_iff hins).mp h2⟩
  · rintro ⟨h1, h2⟩ fault r hr
    have hins := (saveP2PMessage_ok hx hr).1
    exact ⟨(holds_insertAll_iff hins).mpr h1, (holds_insertAll_iff hins).mpr h2⟩

theorem fresh_p2pRows_iff {receiverID : Int} :
    (s.inboxes.insertAll (p2pRows now msg msgID topicSeq receiverID)).2.any (· ≠ .stored) = false ↔
      receiverID ≠ msg.senderID ∧
        ∀ r ∈ p2pRows now msg msgID topicSeq receiverID, ¬ Blocked inboxKeys s.inboxes.rows r := by
  constructor
  · intro h
    have hall : ∀ f ∈ (s.inboxes.insertAll (p2pRows now msg msgID topicSeq receiverID)).2,
        f = .stored := by simpa using h
    have hrows := rows_of_all_stored hall
    have hunique := (s.inboxes.insertAll (p2pRows now msg msgID topicSeq receiverID)).1.unique
    rw [insertAll, hrows, pairwise_append] at hunique
    refine ⟨?_, ?_⟩
    · intro heq
      have hpair := (pairwise_cons.mp hunique.2.1).1 _ mem_cons_self
      exact hpair (conflict_inboxKeys.mpr ⟨heq, .inl ⟨rfl, rfl⟩⟩)
    · intro r hr hb
      obtain ⟨x, hx, hc⟩ := hb
      exact hunique.2.2 x hx r hr hc
  · rintro ⟨hne, hfree⟩
    have hpair : (p2pRows now msg msgID topicSeq receiverID).Pairwise
        (fun a b => ¬ Conflict inboxKeys a b) := by
      refine pairwise_cons.mpr ⟨?_, pairwise_singleton _ _⟩
      intro b hb hc
      rw [mem_singleton.mp hb] at hc
      exact hne (conflict_inboxKeys.mp hc).1
    have hall : ∀ f ∈ (s.inboxes.insertAll (p2pRows now msg msgID topicSeq receiverID)).2,
        f = .stored := all_stored (fun _ _ => rfl) hfree hpair
    simpa using hall

/-- What both participants need when the save is part of a transaction. -/
def SafeInTransaction (now : Int) (msg : UpstreamMessage) (msgID : Int) (topicSeq : ℕ)
    (ev : MessageEvent) (s : Store) (uid1 uid2 : Int) : Prop :=
  (Holds s msg uid1 ∧ Holds s msg uid2) ∨
  (receiverOf msg uid1 uid2 ≠ msg.senderID ∧
    (∀ r ∈ p2pRows now msg msgID topicSeq (receiverOf msg uid1 uid2),
      ¬ Blocked inboxKeys s.inboxes.rows r) ∧
    (¬ Recordable now ev s.agentOutbox ∨
      (Covered s msg (p2pRows now msg msgID topicSeq (receiverOf msg uid1 uid2)) uid1 ∧
        Covered s msg (p2pRows now msg msgID topicSeq (receiverOf msg uid1 uid2)) uid2)))

theorem saveP2PMessage_agentOutbox (hx : extractUserIDsFromP2PTopic msg.topic = .ok (uid1, uid2))
    (fault : SaveFault) :
    (saveP2PMessage now msg msgID topicSeq fault s).2.agentOutbox = s.agentOutbox := by
  rw [saveP2PMessage_store hx]

theorem safeInTransaction_of_holds {ev : MessageEvent}
    (hx : extractUserIDsFromP2PTopic msg.topic = .ok (uid1, uid2))
    (h : Ensures (fun f : SaveFault × TxFault =>
      saveP2PMessageWithAgentEvent now msg msgID topicSeq ev f.1 f.2 s)
      fun s' => Holds s' msg uid1 ∧ Holds s' msg uid2) :
    SafeInTransaction now msg msgID topicSeq ev s uid1 uid2 := by
  have hok : (saveP2PMessage now msg msgID topicSeq .none s).1 = _ := saveP2PMessage_none_ok hx
  have hins := (saveP2PMessage_ok hx hok).1
  cases hdup : (s.inboxes.insertAll (p2pRows now msg msgID topicSeq
      (receiverOf msg uid1 uid2))).2.any (· ≠ .stored) with
  | true =>
    rw [hdup] at hok
    have htx : (saveP2PMessageWithAgentEvent now msg msgID topicSeq ev .none .none s).1 = _ ∧
        (saveP2PMessageWithAgentEvent now msg msgID topicSeq ev .none .none s).2 = _ :=
      withAgentEvent_none_of_duplicate hok rfl
    obtain ⟨h1, h2⟩ := h (.none, .none) _ htx.1
    rw [htx.2] at h1 h2
    exact .inl ⟨h1, h2⟩
  | false =>
    obtain ⟨hne, hfree⟩ := fresh_p2pRows_iff.mp hdup
    rw [hdup] at hok
    refine .inr ⟨hne, hfree, ?_⟩
    by_cases hrec : Recordable now ev s.agentOutbox
    · rw [← saveP2PMessage_agentOutbox hx .none] at hrec
      have hr : (saveP2PMessageWithAgentEvent now msg msgID topicSeq ev .none .none s).1 = _ :=
        withAgentEvent_none_of_recordable hok rfl hrec
      obtain ⟨h1, h2⟩ := h (.none, .none) _ hr
      rcases saveP2PMessageWithAgentEvent_cases ev .none with
        ⟨_, _, hroll⟩ | ⟨_, outbox, _, _, _, hs, _⟩
      · exact absurd (hroll _ hr).2 (by simp)
      · rw [hs] at h1 h2
        exact .inr ⟨(holds_insertAll_iff hins).mp h1, (holds_insertAll_iff hins).mp h2⟩
    · exact .inl hrec

theorem holds_saveP2PMessageWithAgentEvent_iff {ev : MessageEvent}
    (hx : extractUserIDsFromP2PTopic msg.topic = .ok (uid1, uid2)) :
    Ensures (fun f : SaveFault × TxFault =>
        saveP2PMessageWithAgentEvent now msg msgID topicSeq ev f.1 f.2 s)
        (fun s' => Holds s' msg uid1 ∧ Holds s' msg uid2) ↔
      SafeInTransaction now msg msgID topicSeq ev s uid1 uid2 := by
  refine ⟨safeInTransaction_of_holds hx, ?_⟩
  rintro hsafe ⟨fault, tx⟩ r hr
  dsimp only at hr ⊢
  rcases saveP2PMessageWithAgentEvent_cases ev tx with
    ⟨cache, hs, hroll⟩ | ⟨a, outbox, ha, _, hrec, hs, _⟩
  · obtain ⟨ha, hdup⟩ := hroll r hr
    rw [hs]
    rcases hsafe with hold | ⟨hne, hfree, _⟩
    · exact hold
    · have hnot := fresh_p2pRows_iff.mpr ⟨hne, hfree⟩
      have hres := (saveP2PMessage_ok hx ha).2
      rw [hnot] at hres
      rw [hres] at hdup
      cases hdup
  · have hins := (saveP2PMessage_ok hx ha).1
    rw [saveP2PMessage_agentOutbox hx] at hrec
    rw [hs]
    rcases hsafe with ⟨h1, h2⟩ | ⟨_, _, hnorec | ⟨h1, h2⟩⟩
    · exact ⟨(holds_insertAll_iff hins).mpr (.inl h1), (holds_insertAll_iff hins).mpr (.inl h2)⟩
    · exact absurd hrec hnorec
    · exact ⟨(holds_insertAll_iff hins).mpr h1, (holds_insertAll_iff hins).mpr h2⟩

end

section

theorem saveGroupMessage_ok {fault : SaveFault} {dup : Bool}
    (h : (saveGroupMessage now msg msgID topicSeq fault s).1 = .ok dup) :
    (dup = false ∧ HoldsGroup (saveGroupMessage now msg msgID topicSeq fault s).2 msg) ∨
      (dup = true ∧
        Blocked messageKeys s.messages.rows (newStoredMessage now msg msgID topicSeq)) := by
  rw [saveGroupMessage_result] at h
  rw [saveGroupMessage_store]
  rcases insertOne_cases s.messages fault.insert (newStoredMessage now msg msgID topicSeq) with
    ⟨hr, hfree, hins⟩ | ⟨hr, hblocked, _⟩ | ⟨hr, _⟩
  · rw [hr] at h
    refine .inl ⟨(ok.inj h).symm, ?_⟩
    refine ⟨newStoredMessage now msg msgID topicSeq, ?_, rfl, rfl, rfl⟩
    simp [hins, rows_insert_of_not_blocked hfree]
  · rw [hr] at h
    exact .inr ⟨(ok.inj h).symm, hblocked⟩
  · rw [hr] at h
    cases h

theorem saveGroupMessage_none_of_blocked
    (hb : Blocked messageKeys s.messages.rows (newStoredMessage now msg msgID topicSeq)) :
    saveGroupMessage now msg msgID topicSeq .none s = (.ok true, s) := by
  have hins : insertOne s.messages .none (newStoredMessage now msg msgID topicSeq) = _ :=
    insertOne_none_of_blocked hb
  simp [saveGroupMessage, SaveFault.none, hins]

theorem holdsGroup_saveGroupMessage_iff :
    Ensures (saveGroupMessage now msg msgID topicSeq · s) (HoldsGroup · msg) ↔ HoldsGroup s msg ∨
      ¬ Blocked messageKeys s.messages.rows (newStoredMessage now msg msgID topicSeq) := by
  constructor
  · intro h
    by_cases hb : Blocked messageKeys s.messages.rows (newStoredMessage now msg msgID topicSeq)
    · have hholds := h .none true (by simp only [saveGroupMessage_none_of_blocked hb])
      simp only [saveGroupMessage_none_of_blocked hb] at hholds
      exact .inl hholds
    · exact .inr hb
  · intro h fault dup hr
    rcases h with hold | hfree
    · exact hold.mono subset_saveGroupMessage
    · rcases saveGroupMessage_ok hr with ⟨_, hnew⟩ | ⟨_, hb⟩
      · exact hnew
      · exact absurd hb hfree

theorem holdsGroup_saveGroupMessageWithAgentEvent_iff (ev : MessageEvent) :
    Ensures (fun f : SaveFault × TxFault =>
        saveGroupMessageWithAgentEvent now msg msgID topicSeq ev f.1 f.2 s) (HoldsGroup · msg) ↔
      HoldsGroup s msg ∨
        ¬ Blocked messageKeys s.messages.rows (newStoredMessage now msg msgID topicSeq) := by
  constructor
  · intro h
    by_cases hb : Blocked messageKeys s.messages.rows (newStoredMessage now msg msgID topicSeq)
    · have hok : (saveGroupMessage now msg msgID topicSeq .none s).1 = .ok true := by
        rw [saveGroupMessage_none_of_blocked hb]
      have htx : (saveGroupMessageWithAgentEvent now msg msgID topicSeq ev .none .none s).1 = _ ∧
          (saveGroupMessageWithAgentEvent now msg msgID topicSeq ev .none .none s).2 = _ :=
        withAgentEvent_none_of_duplicate hok rfl
      have hholds := h (.none, .none) true htx.1
      rw [htx.2] at hholds
      exact .inl hholds
    · exact .inr hb
  · rintro h ⟨fault, tx⟩ dup hr
    dsimp only at hr ⊢
    rcases saveGroupMessageWithAgentEvent_cases ev tx with
      ⟨cache, hs, hroll⟩ | ⟨a, outbox, ha, (hfresh : a = false), _, hs, _⟩
    · rw [hs]
      obtain ⟨ha, (hdup : dup = true)⟩ := hroll dup hr
      rcases h with hold | hfree
      · exact hold
      · rcases saveGroupMessage_ok ha with ⟨hfalse, _⟩ | ⟨_, hb⟩
        · rw [hdup] at hfalse
          cases hfalse
        · exact absurd hb hfree
    · rw [hs]
      rcases saveGroupMessage_ok ha with ⟨_, hnew⟩ | ⟨htrue, _⟩
      · exact hnew
      · rw [hfresh] at htrue
        cases htrue

theorem holds_saveSystemMessage_iff {target : Int}
    (hx : extractSystemTarget msg.topic = .ok target) :
    Ensures (saveSystemMessage now msg msgID topicSeq · s) (Holds · msg target) ↔
      Holds s msg target ∨ ¬ Blocked inboxKeys s.inboxes.rows
        (newInboxMessage now msg msgID topicSeq target false) := by
  constructor
  · intro h
    by_cases hb : Blocked inboxKeys s.inboxes.rows
        (newInboxMessage now msg msgID topicSeq target false)
    · have hins : insertOne s.inboxes SaveFault.none.insert
          (newInboxMessage now msg msgID topicSeq target false) = _ :=
        insertOne_none_of_blocked hb
      have hholds := h .none ([target], true) (by rw [saveSystemMessage_result hx, hins])
      rw [saveSystemMessage_store hx, hins] at hholds
      exact .inl hholds
    · exact .inr hb
  · intro h fault r hr
    rw [saveSystemMessage_result hx] at hr
    rw [saveSystemMessage_store hx]
    rcases h with hold | hfree
    · exact hold.mono (subset_insertOne _ _ _)
    · rcases insertOne_cases s.inboxes fault.insert
        (newInboxMessage now msg msgID topicSeq target false) with
        ⟨_, _, hins⟩ | ⟨_, hb, _⟩ | ⟨hfail, _⟩
      · refine ⟨newInboxMessage now msg msgID topicSeq target false, ?_, rfl, rfl, rfl, rfl⟩
        simp [hins, rows_insert_of_not_blocked hfree]
      · exact absurd hb hfree
      · rw [hfail] at hr
        cases hr

end

end NonokaIM
