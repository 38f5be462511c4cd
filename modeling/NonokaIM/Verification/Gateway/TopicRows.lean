import NonokaIM.Model.Gateway
import NonokaIM.Verification.Recall.Rows

/-! The rows of one topic: every update of the gateway has the topic in its filter. -/

namespace NonokaIM

open DocumentStore GatewayStorage

/-- All rows about a topic, collection by collection. -/
structure TopicRows where
  messages : List StoredMessage
  inboxes : List InboxMessage
  mentionInboxes : List MentionMessage
  agentOutbox : List AgentEventOutbox
  topicSeq : Option ℕ
  deliveryStatus : List DeliveryStatus
  deriving DecidableEq

def GatewayStorage.rowsAbout (s : GatewayStorage) (topic : String) : TopicRows where
  messages := s.messages.rows.filter fun r => r.topic = topic
  inboxes := s.inboxes.rows.filter fun r => r.topic = topic
  mentionInboxes := s.mentionInboxes.rows.filter fun r => r.topic = topic
  agentOutbox := s.agentOutbox.rows.filter fun r => r.payload.topic = topic
  topicSeq := s.topicSeqs topic
  deliveryStatus := s.deliveryStatus.rows.filter fun r => r.topic = topic

variable {s : GatewayStorage} {topic t : String}

/-! ## Acks and read receipts -/

theorem updateDeliveryStatus_storage (now userID : Int) (topic : String) (topicSeq : ℕ)
    (fault : DeliveryFault) (s : GatewayStorage) :
    ∃ deliveryStatus, (deliveryStatus = s.deliveryStatus ∨ deliveryStatus =
        (insertOne s.deliveryStatus fault.insert
          { userID, topic, topicSeq, deliveredAt := now }).1) ∧
      (updateDeliveryStatus now userID topic topicSeq fault s).2 =
        { s with
          inboxes := (updateMany s.inboxes (updateFaultFor topicSeq fault.inbox)
            (fun r => r.userID = userID ∧ r.topic = topic ∧ r.topicSeq = topicSeq)
            (setInboxDelivered now)).1
          mentionInboxes := (updateMany s.mentionInboxes (updateFaultFor topicSeq fault.mention)
            (fun r => r.userID = userID ∧ r.topic = topic ∧ r.topicSeq = topicSeq)
            (setMentionDelivered now)).1
          deliveryStatus } := by
  unfold updateDeliveryStatus
  dsimp only
  split
  · exact ⟨_, .inl rfl, rfl⟩
  · exact ⟨_, .inl rfl, rfl⟩
  · exact ⟨_, .inl rfl, rfl⟩
  · split
    · exact ⟨_, .inl rfl, rfl⟩
    · split <;> exact ⟨_, .inr rfl, rfl⟩

theorem rowsAbout_updateDeliveryStatus (now userID : Int) (topicSeq : ℕ) (fault : DeliveryFault)
    (ht : topic ≠ t) :
    (updateDeliveryStatus now userID topic topicSeq fault s).2.rowsAbout t = s.rowsAbout t := by
  obtain ⟨deliveryStatus, hdelivery, h⟩ :=
    updateDeliveryStatus_storage now userID topic topicSeq fault s
  rw [h]
  simp only [rowsAbout, TopicRows.mk.injEq, true_and]
  refine ⟨?_, ?_, ?_⟩
  · exact filter_updateMany InboxMessage.topic ht (by simp +contextual) (fun _ => rfl)
  · exact filter_updateMany MentionMessage.topic ht (by simp +contextual) (fun _ => rfl)
  · rcases hdelivery with rfl | rfl
    · rfl
    · exact filter_insertOne fault.insert (by simp [ht])

theorem updateReadStatus_storage (now userID : Int) (topic : String) (upToSeq : ℕ)
    (fault : ReadFault) (s : GatewayStorage) :
    ∃ mentionInboxes, (mentionInboxes = s.mentionInboxes ∨ mentionInboxes =
        (updateMany s.mentionInboxes (updateFaultFor upToSeq fault.mention)
          (fun r => r.userID = userID ∧ r.topic = topic ∧ r.topicSeq ≤ upToSeq ∧ r.read ≠ true)
          (setMentionRead now)).1) ∧
      (updateReadStatus now userID topic upToSeq fault s).2 =
        { s with
          inboxes := (updateMany s.inboxes (updateFaultFor upToSeq fault.inbox)
            (fun r => r.userID = userID ∧ r.topic = topic ∧ r.topicSeq ≤ upToSeq ∧ r.read ≠ true)
            (setInboxRead now)).1
          mentionInboxes } := by
  unfold updateReadStatus
  split
  · rename_i h
    rw [h]
    exact ⟨_, .inl rfl, rfl⟩
  · rename_i h
    rw [h]
    split
    · rename_i h'
      rw [h']
      exact ⟨_, .inr rfl, rfl⟩
    · rename_i h'
      rw [h']
      exact ⟨_, .inr rfl, rfl⟩

theorem rowsAbout_updateReadStatus (now userID : Int) (upToSeq : ℕ) (fault : ReadFault)
    (ht : topic ≠ t) :
    (updateReadStatus now userID topic upToSeq fault s).2.rowsAbout t = s.rowsAbout t := by
  obtain ⟨mentionInboxes, hmention, h⟩ := updateReadStatus_storage now userID topic upToSeq fault s
  rw [h]
  simp only [rowsAbout, TopicRows.mk.injEq, true_and, and_true]
  constructor
  · exact filter_updateMany InboxMessage.topic ht (by simp +contextual) (fun _ => rfl)
  · rcases hmention with rfl | rfl
    · rfl
    · exact filter_updateMany MentionMessage.topic ht (by simp +contextual) (fun _ => rfl)

/-! ## Senders and recalls -/

theorem rowsAbout_getMessageSender (env : SenderEnv) (topic : String) (topicSeq : ℕ)
    (s : GatewayStorage) (t : String) :
    (getMessageSender env topic topicSeq s).2.rowsAbout t = s.rowsAbout t := by
  have hcache : ∀ senderID,
      ({ s with
          toStore := s.cacheMessageSender env.cacheWriteFails topic topicSeq senderID } :
        GatewayStorage).rowsAbout t = s.rowsAbout t := by
    intro senderID
    unfold Store.cacheMessageSender
    split <;> rfl
  unfold getMessageSender
  split
  · rfl
  split
  · exact hcache _
  · rfl
  · rfl

theorem RecallArgs.topic_of_selects {args : RecallArgs} {now : Int} {r : RecallFields}
    (h : args.selects now r = true) : r.topic = args.topic := by
  simp only [RecallArgs.selects, Bool.and_eq_true, decide_eq_true_eq] at h
  exact h.1.1.1.1.1

theorem recallMessage_rest (args : RecallArgs) (now : Int) (fault : RecallFault) (s : Store) :
    (recallMessage args now fault s).2.agentOutbox = s.agentOutbox ∧
      (recallMessage args now fault s).2.topicSeqs = s.topicSeqs := by
  obtain ⟨messages, inboxes, mentions⟩ := fault
  cases messages <;> cases inboxes <;> cases mentions <;> exact ⟨rfl, rfl⟩

theorem rowsAbout_recallMessage (args : RecallArgs) (now : Int) (fault : RecallFault)
    (ht : args.topic ≠ t) :
    ({ s with toStore := (recallMessage args now fault s.toStore).2 } : GatewayStorage).rowsAbout t =
      s.rowsAbout t := by
  have hselects : ∀ r : RecallFields, args.selects now r = true → r.topic = args.topic :=
    fun r hr => RecallArgs.topic_of_selects hr
  have hrest := recallMessage_rest args now fault s.toStore
  simp only [rowsAbout, TopicRows.mk.injEq, hrest.1, hrest.2, and_true]
  refine ⟨?_, ?_, ?_⟩
  · rw [recallMessage_messages]
    exact filter_updateMany StoredMessage.topic ht (fun r hr => hselects _ hr) (fun _ => rfl)
  · rcases recallMessage_inboxes args now fault s.toStore with h | h
    · rw [h]
    · rw [h]
      exact filter_updateMany InboxMessage.topic ht (fun r hr => hselects _ hr) (fun _ => rfl)
  · rcases recallMessage_mentionInboxes args now fault s.toStore with h | h
    · rw [h]
    · rw [h]
      exact filter_updateMany MentionMessage.topic ht (fun r hr => hselects _ hr) (fun _ => rfl)

end NonokaIM
