import NonokaIM.Model.Cluster
import NonokaIM.Verification.Worker.Readers

/-! # What one save does to the collections

A save adds copies of its message only, each for a reader of the message whose keys were free. -/

namespace NonokaIM

open DocumentStore List Collection

structure Copy where
  topic : String
  senderID : Int
  clientMsgID : String
  msgID : Int
  topicSeq : ℕ
  deriving DecidableEq

def InboxMessage.copy (r : InboxMessage) : Copy :=
  ⟨r.topic, r.senderID, r.clientMsgID, r.msgID, r.topicSeq⟩

def StoredMessage.copy (r : StoredMessage) : Copy :=
  ⟨r.topic, r.senderID, r.clientMsgID, r.msgID, r.topicSeq⟩

def MentionMessage.copy (r : MentionMessage) : Copy :=
  ⟨r.topic, r.senderID, r.clientMsgID, r.msgID, r.topicSeq⟩

def UpstreamMessage.copy (msg : UpstreamMessage) (msgID : Int) (topicSeq : ℕ) : Copy :=
  ⟨msg.topic, msg.senderID, msg.clientMsgID, msgID, topicSeq⟩

def Attempt.copy {ι : Type} (a : Attempt ι) : Copy := a.msg.copy a.msgID a.topicSeq

theorem isGroup_iff {msg : UpstreamMessage} :
    isGroup msg = true ↔ parseTopicType msg.topic = .group := by
  simp [isGroup]

def Addressed (msg : UpstreamMessage) (userID : Int) : Prop :=
  match parseTopicType msg.topic with
  | .p2p => ∃ uid1 uid2, extractUserIDsFromP2PTopic msg.topic = .ok (uid1, uid2) ∧
      (userID = receiverOf msg uid1 uid2 ∨ userID = msg.senderID)
  | .system => extractSystemTarget msg.topic = .ok userID
  | _ => False

section

variable {cfg : WorkerConfig} {now : Int} {msg : UpstreamMessage} {msgID : Int} {topicSeq : ℕ}
  {fault : SaveFault} {tx : TxFault} {s s' : Store}

/-- A save adds copies of its message under free keys to the inboxes, or the row of a group
message. -/
structure SaveEffect (now : Int) (msg : UpstreamMessage) (msgID : Int) (topicSeq : ℕ)
    (s s' : Store) : Prop where
  inboxes_subset : s.inboxes.rows ⊆ s'.inboxes.rows
  messages_subset : s.messages.rows ⊆ s'.messages.rows
  inboxes_new : ∀ r ∈ s'.inboxes.rows, r ∈ s.inboxes.rows ∨
    (r.copy = msg.copy msgID topicSeq ∧ Addressed msg r.userID ∧
      ¬ Blocked inboxKeys s.inboxes.rows r)
  messages_new : ∀ r ∈ s'.messages.rows, r ∈ s.messages.rows ∨
    (isGroup msg = true ∧ r = newStoredMessage now msg msgID topicSeq ∧
      ¬ Blocked messageKeys s.messages.rows r)
  mentionInboxes : s'.mentionInboxes = s.mentionInboxes
  topicSeqs : s'.topicSeqs = s.topicSeqs

theorem SaveEffect.of_eq (hi : s'.inboxes = s.inboxes) (hm : s'.messages = s.messages)
    (hmention : s'.mentionInboxes = s.mentionInboxes) (hseqs : s'.topicSeqs = s.topicSeqs) :
    SaveEffect now msg msgID topicSeq s s' where
  inboxes_subset := by rw [hi]; exact Subset.refl _
  messages_subset := by rw [hm]; exact Subset.refl _
  inboxes_new := by
    intro r hr
    rw [hi] at hr
    exact .inl hr
  messages_new := by
    intro r hr
    rw [hm] at hr
    exact .inl hr
  mentionInboxes := hmention
  topicSeqs := hseqs

theorem copy_p2pRows {receiverID : Int} {r : InboxMessage}
    (hr : r ∈ p2pRows now msg msgID topicSeq receiverID) :
    r.copy = msg.copy msgID topicSeq ∧ (r.userID = receiverID ∨ r.userID = msg.senderID) := by
  simp only [p2pRows, mem_cons, not_mem_nil, or_false] at hr
  rcases hr with rfl | rfl
  · exact ⟨rfl, .inl rfl⟩
  · exact ⟨rfl, .inr rfl⟩

theorem saveP2PMessage_effect (ht : parseTopicType msg.topic = .p2p) :
    SaveEffect now msg msgID topicSeq s (saveP2PMessage now msg msgID topicSeq fault s).2 := by
  cases hx : extractUserIDsFromP2PTopic msg.topic with
  | error e =>
    rw [saveP2PMessage_error hx]
    exact .of_eq rfl rfl rfl rfl
  | ok uids =>
    rw [saveP2PMessage_store hx]
    refine ⟨?_, Subset.refl _, ?_, fun r hr => .inl hr, rfl, rfl⟩
    · exact subset_insertMany _ _ _
    · intro r hr
      rcases mem_insertMany hr with hold | ⟨hnew, hfree⟩
      · exact .inl hold
      · obtain ⟨hcopy, huser⟩ := copy_p2pRows hnew
        refine .inr ⟨hcopy, ?_, hfree⟩
        simp only [Addressed, ht]
        exact ⟨_, _, hx, huser⟩

theorem saveGroupMessage_effect (ht : parseTopicType msg.topic = .group) :
    SaveEffect now msg msgID topicSeq s (saveGroupMessage now msg msgID topicSeq fault s).2 := by
  refine ⟨?_, subset_saveGroupMessage, ?_, ?_, ?_, ?_⟩
  · rw [saveGroupMessage_store]
    exact Subset.refl _
  · intro r hr
    rw [saveGroupMessage_store] at hr
    exact .inl hr
  · intro r hr
    rcases mem_saveGroupMessage hr with hold | ⟨hnew, hfree⟩
    · exact .inl hold
    · exact .inr ⟨isGroup_iff.mpr ht, hnew, hfree⟩
  · rw [saveGroupMessage_store]
  · rw [saveGroupMessage_store]

theorem saveSystemMessage_effect (ht : parseTopicType msg.topic = .system) :
    SaveEffect now msg msgID topicSeq s (saveSystemMessage now msg msgID topicSeq fault s).2 := by
  cases hx : extractSystemTarget msg.topic with
  | error e =>
    rw [saveSystemMessage_error hx]
    exact .of_eq rfl rfl rfl rfl
  | ok target =>
    rw [saveSystemMessage_store hx]
    refine ⟨subset_insertOne _ _ _, Subset.refl _, ?_, fun r hr => .inl hr, rfl, rfl⟩
    intro r hr
    rcases mem_tryInsert hr with hold | ⟨rfl, hfree⟩
    · exact .inl hold
    · refine .inr ⟨rfl, ?_, hfree⟩
      simp only [Addressed, ht]
      exact hx

theorem SaveEffect.with_outbox {outbox : Collection outboxKeys}
    (h : SaveEffect now msg msgID topicSeq s s') :
    SaveEffect now msg msgID topicSeq s { s' with agentOutbox := outbox } :=
  ⟨h.inboxes_subset, h.messages_subset, h.inboxes_new, h.messages_new, h.mentionInboxes,
    h.topicSeqs⟩

theorem save_effect :
    SaveEffect now msg msgID topicSeq s (save cfg now msg msgID topicSeq fault tx s).2 := by
  cases ht : parseTopicType msg.topic with
  | p2p =>
    simp only [save, ht]
    cases cfg.agentPublisher with
    | false => exact saveP2PMessage_effect ht
    | true =>
      simp only [if_true]
      rcases saveP2PMessageWithAgentEvent_cases (newMessageEvent cfg.sha256Hex msgID msg) tx with
        ⟨_, hs, _⟩ | ⟨_, _, _, _, _, hs, _⟩
      · rw [hs]
        exact .of_eq rfl rfl rfl rfl
      · rw [hs]
        exact (saveP2PMessage_effect ht).with_outbox
  | group =>
    simp only [save, ht]
    cases cfg.agentPublisher with
    | false => exact saveGroupMessage_effect ht
    | true =>
      simp only [if_true]
      rcases saveGroupMessageWithAgentEvent_cases (newMessageEvent cfg.sha256Hex msgID msg) tx
        with ⟨_, hs, _⟩ | ⟨_, _, _, _, _, hs, _⟩
      · rw [hs]
        exact .of_eq rfl rfl rfl rfl
      · rw [hs]
        exact (saveGroupMessage_effect ht).with_outbox
  | system =>
    simp only [save, ht]
    exact saveSystemMessage_effect ht
  | unknown =>
    simp only [save, ht]
    exact .of_eq rfl rfl rfl rfl

end

end NonokaIM
