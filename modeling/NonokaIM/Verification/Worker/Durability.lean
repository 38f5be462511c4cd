import NonokaIM.Verification.Worker.Batches

/-! # Durability of handled messages

When a handler that returns without error has stored the message. -/

namespace NonokaIM

open DocumentStore SeqGenerator Bool CallFault

variable {now : Int} {msg : UpstreamMessage} {msgID : Int} {topicSeq : ℕ} {s : Store}

/-! ## Handled messages -/

/-- The state before the save in which its success means that all readers have the message. -/
def SafeToSave (cfg : WorkerConfig) (now : Int) (msg : UpstreamMessage) (msgID : Int)
    (topicSeq : ℕ) (peers : Peers) (s : Store) : Prop :=
  match parseTopicType msg.topic with
  | .p2p => ∀ uid1 uid2, extractUserIDsFromP2PTopic msg.topic = .ok (uid1, uid2) →
      if cfg.agentPublisher then
        SafeInTransaction now msg msgID topicSeq (newMessageEvent cfg.sha256Hex msgID msg) s
          uid1 uid2
      else
        Covered s msg (p2pRows now msg msgID topicSeq (receiverOf msg uid1 uid2)) uid1 ∧
        Covered s msg (p2pRows now msg msgID topicSeq (receiverOf msg uid1 uid2)) uid2
  | .group =>
    if cfg.groupBatcher && !cfg.agentPublisher then
      SafeInBatch now ⟨msg, msgID, topicSeq⟩ peers s
    else HoldsGroup s msg ∨
      ¬ Blocked messageKeys s.messages.rows (newStoredMessage now msg msgID topicSeq)
  | .system => ∀ target, extractSystemTarget msg.topic = .ok target → Holds s msg target ∨
      ¬ Blocked inboxKeys s.inboxes.rows (newInboxMessage now msg msgID topicSeq target false)
  | .unknown => True

section

variable {cfg : WorkerConfig} {peers : Peers}

theorem durable_persist_p2p_iff (ht : parseTopicType msg.topic = .p2p) :
    Ensures (persist cfg now msg msgID topicSeq peers · s) (Durable · msg) ↔
      SafeToSave cfg now msg msgID topicSeq peers s := by
  have hb : batched cfg msg = false := by simp [batched, isGroup, ht]
  simp only [Ensures, persist, hb, false_eq_true, if_false, save, ht, Durable, SafeToSave,
    wrapErr_eq_ok]
  cases cfg.agentPublisher with
  | true =>
    constructor
    · intro h uid1 uid2 hx
      refine (holds_saveP2PMessageWithAgentEvent_iff hx).mp ?_
      rintro ⟨fault, tx⟩ r hr
      exact h { save := fault, tx := tx } r hr uid1 uid2 hx
    · intro h fault r hr uid1 uid2 hx
      exact (holds_saveP2PMessageWithAgentEvent_iff hx).mpr (h uid1 uid2 hx) (_, _) r hr
  | false =>
    constructor
    · intro h uid1 uid2 hx
      refine (holds_saveP2PMessage_iff hx).mp ?_
      intro fault r hr
      exact h { save := fault } r hr uid1 uid2 hx
    · intro h fault r hr uid1 uid2 hx
      exact (holds_saveP2PMessage_iff hx).mpr (h uid1 uid2 hx) _ r hr

theorem durable_persist_system_iff (ht : parseTopicType msg.topic = .system) :
    Ensures (persist cfg now msg msgID topicSeq peers · s) (Durable · msg) ↔
      SafeToSave cfg now msg msgID topicSeq peers s := by
  have hb : batched cfg msg = false := by simp [batched, isGroup, ht]
  simp only [Ensures, persist, hb, false_eq_true, if_false, save, ht, Durable, SafeToSave,
    wrapErr_eq_ok]
  constructor
  · intro h target hx
    refine (holds_saveSystemMessage_iff hx).mp ?_
    intro fault r hr
    exact h { save := fault } r hr target hx
  · intro h fault r hr target hx
    exact (holds_saveSystemMessage_iff hx).mpr (h target hx) _ r hr

theorem holdsGroup_addToBatch_iff :
    (∀ fault timedOut r, (addToBatch now ⟨msg, msgID, topicSeq⟩ peers fault timedOut s).1 = .ok r →
      HoldsGroup (addToBatch now ⟨msg, msgID, topicSeq⟩ peers fault timedOut s).2 msg) ↔
    SafeInBatch now ⟨msg, msgID, topicSeq⟩ peers s := by
  constructor
  · intro h
    refine holdsGroup_flush_iff.mp ?_
    intro fault dup hr
    have hok : (addToBatch now ⟨msg, msgID, topicSeq⟩ peers fault false s).1 = .ok ([], dup) := by
      simp [addToBatch, hr, Except.map, wrapErr]
    have hholds := h fault false ([], dup) hok
    simpa [addToBatch, hr] using hholds
  · intro h fault timedOut r hr
    have hstore : (addToBatch now ⟨msg, msgID, topicSeq⟩ peers fault timedOut s).2 =
        (flush now (peers.items ⟨msg, msgID, topicSeq⟩) fault s).2 := by
      simp only [addToBatch]
      split
      · rfl
      · split <;> rfl
    rw [hstore]
    simp only [addToBatch] at hr
    split at hr
    · cases hr
    split at hr
    · rename_i res hres
      obtain ⟨dup, hdup, _⟩ := map_eq_ok.mp (wrapErr_eq_ok.mp hr)
      rw [hdup] at hres
      exact holdsGroup_flush_iff.mpr h fault dup hres
    · cases hr

theorem durable_persist_group_iff (ht : parseTopicType msg.topic = .group) :
    Ensures (persist cfg now msg msgID topicSeq peers · s) (Durable · msg) ↔
      SafeToSave cfg now msg msgID topicSeq peers s := by
  have hb : batched cfg msg = (cfg.groupBatcher && !cfg.agentPublisher) := by
    simp [batched, isGroup, ht]
  simp only [Ensures, persist, hb, save, ht, Durable, SafeToSave]
  by_cases hbatch : (cfg.groupBatcher && !cfg.agentPublisher) = true
  · simp only [hbatch, if_true]
    rw [← holdsGroup_addToBatch_iff]
    constructor
    · intro h fault timedOut r hr
      exact h { flush := fault, timedOut := timedOut } r hr
    · intro h fault r hr
      exact h fault.flush fault.timedOut r hr
  · simp only [hbatch, false_eq_true, if_false, wrapErr_eq_ok, map_eq_ok]
    cases cfg.agentPublisher with
    | true =>
      constructor
      · intro h
        refine (holdsGroup_saveGroupMessageWithAgentEvent_iff
          (newMessageEvent cfg.sha256Hex msgID msg)).mp ?_
        rintro ⟨fault, tx⟩ dup hr
        exact h { save := fault, tx := tx } ([], dup) ⟨dup, hr, rfl⟩
      · rintro h fault r ⟨dup, hr, _⟩
        exact (holdsGroup_saveGroupMessageWithAgentEvent_iff _).mpr h (_, _) dup hr
    | false =>
      constructor
      · intro h
        refine holdsGroup_saveGroupMessage_iff.mp ?_
        intro fault dup hr
        exact h { save := fault } ([], dup) ⟨dup, hr, rfl⟩
      · rintro h fault r ⟨dup, hr, _⟩
        exact holdsGroup_saveGroupMessage_iff.mpr h _ dup hr

theorem durable_persist_iff :
    Ensures (persist cfg now msg msgID topicSeq peers · s) (Durable · msg) ↔
      SafeToSave cfg now msg msgID topicSeq peers s := by
  cases ht : parseTopicType msg.topic with
  | p2p => exact durable_persist_p2p_iff ht
  | group => exact durable_persist_group_iff ht
  | system => exact durable_persist_system_iff ht
  | unknown => simp [Ensures, Durable, SafeToSave, ht]

end

/-! ## The whole handler -/

def SeqGenerator.upcoming (g : SeqGenerator) (topic : String) (counter : ℕ) : Option ℕ :=
  if (g.range topic).Available then some (g.range topic).next
  else if counter + defaultSeqBatchSize < 2 ^ 63 then some (counter + 1)
  else none

theorem upcoming_of_nextSeq {g : SeqGenerator} {topic : String} {counter : ℕ} {fault : CallFault}
    {n : ℕ} (h : (g.nextSeq topic counter fault).1 = .ok n) : g.upcoming topic counter = some n := by
  by_cases ha : (g.range topic).Available
  · simpa [nextSeq, upcoming, ha, serve] using h
  by_cases hc : counter + defaultSeqBatchSize < 2 ^ 63
  · rw [upcoming, if_neg ha, if_pos hc]
    cases fault with
    | none =>
      simpa [nextSeq, ha, incrBy_of_lt hc, reported, refill] using h
    | failed | lost => simp [nextSeq, ha, incrBy_of_lt hc, reported] at h
  · simp [nextSeq, ha, incrBy_of_not_lt hc] at h

theorem nextSeq_of_upcoming {g : SeqGenerator} {topic : String} {counter n : ℕ}
    (h : g.upcoming topic counter = some n) : (g.nextSeq topic counter .none).1 = .ok n := by
  by_cases ha : (g.range topic).Available
  · simpa [nextSeq, upcoming, ha, serve] using h
  by_cases hc : counter + defaultSeqBatchSize < 2 ^ 63
  · rw [upcoming, if_neg ha, if_pos hc] at h
    simpa [nextSeq, ha, incrBy_of_lt hc, reported, refill] using h
  · rw [upcoming, if_neg ha, if_neg hc] at h
    cases h

theorem durable_congr {s s' : Store} (hi : s'.inboxes = s.inboxes) (hm : s'.messages = s.messages) :
    Durable s' msg ↔ Durable s msg := by
  simp only [Durable, Holds, HoldsGroup, hi, hm]

section

variable {cfg : WorkerConfig} {peers : Peers}

theorem complete_none_ok {recipientIDs : List Int} {isDuplicate : Bool} {w : World} :
    (complete cfg now msg msgID topicSeq recipientIDs isDuplicate {} .queued w).1 = .ok () := by
  cases isDuplicate <;> rfl

theorem handleMessage_ok {fault : HandleFault} {g : SeqGenerator} {counter : ℕ} {w : World}
    (h : (handleMessage cfg now msg msgID peers fault g counter w).1 = .ok ()) :
    ∃ topicSeq r, g.upcoming msg.topic counter = some topicSeq ∧
      (persist cfg now msg msgID topicSeq peers fault w.store).1 = .ok r ∧
      (handleMessage cfg now msg msgID peers fault g counter w).2.1.store.inboxes =
        (persist cfg now msg msgID topicSeq peers fault w.store).2.inboxes ∧
      (handleMessage cfg now msg msgID peers fault g counter w).2.1.store.messages =
        (persist cfg now msg msgID topicSeq peers fault w.store).2.messages := by
  rcases hn : g.nextSeq msg.topic counter fault.seq with ⟨_ | topicSeq, g', counter'⟩
  · simp [handleMessage, hn] at h
  · have hup : g.upcoming msg.topic counter = some topicSeq :=
      upcoming_of_nextSeq (by rw [hn])
    rcases hp : persist cfg now msg msgID topicSeq peers fault w.store with
      ⟨_ | ⟨recipientIDs, isDuplicate⟩, s⟩
    · simp [handleMessage, hn, hp] at h
    · refine ⟨topicSeq, (recipientIDs, isDuplicate), hup, by rw [hp], ?_, ?_⟩
      · simp only [handleMessage, hn, hp]
        rw [complete_store]
      · simp only [handleMessage, hn, hp]
        rw [complete_store]

theorem handleMessage_of_persist {fault : HandleFault} {g : SeqGenerator} {counter : ℕ} {w : World}
    {r : List Int × Bool} (hup : g.upcoming msg.topic counter = some topicSeq)
    (hp : (persist cfg now msg msgID topicSeq peers fault w.store).1 = .ok r) :
    (handleMessage cfg now msg msgID peers
      { fault with seq := .none, complete := {}, pool := .queued } g counter w).1 = .ok () := by
  have hn := nextSeq_of_upcoming hup
  rcases hnext : g.nextSeq msg.topic counter .none with ⟨res, g', counter'⟩
  rw [hnext] at hn
  have hpersist : persist cfg now msg msgID topicSeq peers
      { fault with seq := .none, complete := {}, pool := .queued } w.store =
      persist cfg now msg msgID topicSeq peers fault w.store := rfl
  rcases hres : persist cfg now msg msgID topicSeq peers fault w.store with ⟨_ | r, s⟩
  · rw [hres] at hp
    cases hp
  · simp only at hn
    simp only [handleMessage, hnext, hn, hpersist, hres]
    exact complete_none_ok

/-- Whatever fails on the way, a handler that returns no error has stored the message for all its
readers, exactly when the state in which it saves is safe. -/
theorem handleMessage_durable_iff (cfg : WorkerConfig) (now : Int) (msg : UpstreamMessage)
    (msgID : Int) (peers : Peers) (g : SeqGenerator) (counter : ℕ) (w : World) :
    (∀ fault, (handleMessage cfg now msg msgID peers fault g counter w).1 = .ok () →
      Durable (handleMessage cfg now msg msgID peers fault g counter w).2.1.store msg) ↔
    ∀ topicSeq, g.upcoming msg.topic counter = some topicSeq →
      SafeToSave cfg now msg msgID topicSeq peers w.store := by
  constructor
  · intro h topicSeq hup
    refine durable_persist_iff.mp ?_
    intro fault r hp
    have hok := handleMessage_of_persist hup hp
    obtain ⟨seq', r', hup', _, hi, hm⟩ := handleMessage_ok hok
    obtain rfl : topicSeq = seq' := by
      rw [hup] at hup'
      exact Option.some.inj hup'
    exact (durable_congr hi hm).mp (h _ hok)
  · intro h fault hok
    obtain ⟨topicSeq, r, hup, hp, hi, hm⟩ := handleMessage_ok hok
    exact (durable_congr hi hm).mpr (durable_persist_iff.mpr (h topicSeq hup) fault r hp)

end

def storeWithOtherMessage : Store where
  inboxes := Collection.empty.insert
    (newInboxMessage 0 ⟨3, "p2p_2_3", 0, [], "m1", 0, []⟩ 7 1 2 false)

/-- User 1 sends user 2 a message under the client id "m1". The handler reports success, and
user 2 does not have the message. -/
theorem handled_message_not_durable :
    (handleMessage {} 0 ⟨1, "p2p_1_2", 0, [], "m1", 0, []⟩ 8 {} {} {} 0
      { store := storeWithOtherMessage }).1 = .ok () ∧
    ¬ Durable (handleMessage {} 0 ⟨1, "p2p_1_2", 0, [], "m1", 0, []⟩ 8 {} {} {} 0
      { store := storeWithOtherMessage }).2.1.store ⟨1, "p2p_1_2", 0, [], "m1", 0, []⟩ := by
  refine ⟨by decide, ?_⟩
  intro h
  have hholds := (h 1 2 (by decide)).2
  revert hholds
  decide

end NonokaIM
