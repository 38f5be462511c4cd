import NonokaIM.Library.DocumentStore

/-! Upstream messages, the rows stored for them, and the unique index keys of each row. -/

namespace NonokaIM

structure UpstreamMessage where
  senderID : Int
  topic : String
  msgType : Int := 0
  content : List UInt8 := []
  clientMsgID : String := ""
  timestamp : Int := 0
  mentionedUserIDs : List Int := []
  deriving DecidableEq

/-- A group message. Its bson field `client_msg_id` is absent when the id is empty. -/
structure StoredMessage where
  msgID : Int
  topic : String
  senderID : Int
  msgType : Int
  content : List UInt8
  timestamp : Int
  topicSeq : ℕ
  clientMsgID : String
  recalled : Bool := false
  createdAt : Int
  deriving DecidableEq

structure InboxMessage where
  userID : Int
  msgID : Int
  topic : String
  senderID : Int
  msgType : Int
  content : List UInt8
  timestamp : Int
  topicSeq : ℕ
  clientMsgID : String
  recalled : Bool := false
  read : Bool := false
  readAt : Option Int := none
  deliveredAt : Option Int := none
  createdAt : Int
  deriving DecidableEq

structure MentionMessage where
  userID : Int
  msgID : Int
  topic : String
  senderID : Int
  msgType : Int
  content : List UInt8
  timestamp : Int
  topicSeq : ℕ
  clientMsgID : String
  recalled : Bool := false
  read : Bool := false
  readAt : Option Int := none
  deliveredAt : Option Int := none
  createdAt : Int
  deriving DecidableEq

structure MessageEvent where
  schemaVersion : ℕ := 1
  eventID : String
  msgID : Int
  topic : String
  senderID : Int
  msgType : Int
  timestamp : Int
  mentionedAgentIDs : List Int
  deriving DecidableEq

inductive OutboxStatus where
  | pending
  | processing
  | published
  deriving DecidableEq

/-- A row of the outbox. Fields that a statement may leave out or remove are options. -/
structure AgentEventOutbox where
  eventID : String
  payload : MessageEvent
  status : OutboxStatus
  attempts : ℕ := 0
  nextAttemptAt : Option Int
  lockedUntil : Option Int := none
  lastError : Option String := none
  createdAt : Int
  publishedAt : Option Int := none
  deriving DecidableEq

/-- Keys of `topic_seq_unique` and `client_msg_id_dedup` on messages. -/
inductive MessageKey where
  | topicSeq (topic : String) (seq : ℕ)
  | clientMsgID (senderID : Int) (clientMsgID : String)
  deriving DecidableEq

/-- Keys of the two unique indexes on inboxes, and of the two on mention_inboxes. -/
inductive UserKey where
  | topicSeq (userID : Int) (topic : String) (seq : ℕ)
  | clientMsgID (userID : Int) (clientMsgID : String)
  deriving DecidableEq

/-- The partial filter `client_msg_id: {$exists: true}` leaves out rows without the id. -/
def clientKeys {κ : Type} (clientMsgID : String) (key : String → κ) : List κ :=
  if clientMsgID = "" then [] else [key clientMsgID]

@[simp] theorem mem_clientKeys {κ : Type} {clientMsgID : String} {key : String → κ} {k : κ} :
    k ∈ clientKeys clientMsgID key ↔ clientMsgID ≠ "" ∧ k = key clientMsgID := by
  unfold clientKeys
  split <;> simp_all

def messageKeys (r : StoredMessage) : List MessageKey :=
  .topicSeq r.topic r.topicSeq :: clientKeys r.clientMsgID (.clientMsgID r.senderID)

def inboxKeys (r : InboxMessage) : List UserKey :=
  .topicSeq r.userID r.topic r.topicSeq :: clientKeys r.clientMsgID (.clientMsgID r.userID)

def mentionKeys (r : MentionMessage) : List UserKey :=
  .topicSeq r.userID r.topic r.topicSeq :: clientKeys r.clientMsgID (.clientMsgID r.userID)

def outboxKeys (r : AgentEventOutbox) : List String := [r.eventID]

open DocumentStore

theorem conflict_messageKeys {a b : StoredMessage} :
    Conflict messageKeys a b ↔
      (a.topic = b.topic ∧ a.topicSeq = b.topicSeq) ∨
      (a.senderID = b.senderID ∧ a.clientMsgID = b.clientMsgID ∧ b.clientMsgID ≠ "") := by
  simp only [Conflict, messageKeys, List.mem_cons, mem_clientKeys]
  constructor
  · rintro ⟨k, rfl | ⟨ha, rfl⟩, hb | ⟨hb, hk⟩⟩
    · exact .inl (by simpa using hb)
    · cases hk
    · cases hb
    · simp only [MessageKey.clientMsgID.injEq] at hk
      exact .inr ⟨hk.1, hk.2, hb⟩
  · rintro (⟨ht, hs⟩ | ⟨hs, hc, hb⟩)
    · exact ⟨_, .inl rfl, .inl (by rw [ht, hs])⟩
    · exact ⟨_, .inr ⟨hc ▸ hb, rfl⟩, .inr ⟨hb, by rw [hs, hc]⟩⟩

theorem conflict_inboxKeys {a b : InboxMessage} :
    Conflict inboxKeys a b ↔ a.userID = b.userID ∧
      ((a.topic = b.topic ∧ a.topicSeq = b.topicSeq) ∨
        (a.clientMsgID = b.clientMsgID ∧ b.clientMsgID ≠ "")) := by
  simp only [Conflict, inboxKeys, List.mem_cons, mem_clientKeys]
  constructor
  · rintro ⟨k, rfl | ⟨ha, rfl⟩, hb | ⟨hb, hk⟩⟩
    · simp only [UserKey.topicSeq.injEq] at hb
      exact ⟨hb.1, .inl hb.2⟩
    · cases hk
    · cases hb
    · simp only [UserKey.clientMsgID.injEq] at hk
      exact ⟨hk.1, .inr ⟨hk.2, hb⟩⟩
  · rintro ⟨hu, ⟨ht, hs⟩ | ⟨hc, hb⟩⟩
    · exact ⟨_, .inl rfl, .inl (by rw [hu, ht, hs])⟩
    · exact ⟨_, .inr ⟨hc ▸ hb, rfl⟩, .inr ⟨hb, by rw [hu, hc]⟩⟩

theorem conflict_mentionKeys {a b : MentionMessage} :
    Conflict mentionKeys a b ↔ a.userID = b.userID ∧
      ((a.topic = b.topic ∧ a.topicSeq = b.topicSeq) ∨
        (a.clientMsgID = b.clientMsgID ∧ b.clientMsgID ≠ "")) := by
  simp only [Conflict, mentionKeys, List.mem_cons, mem_clientKeys]
  constructor
  · rintro ⟨k, rfl | ⟨ha, rfl⟩, hb | ⟨hb, hk⟩⟩
    · simp only [UserKey.topicSeq.injEq] at hb
      exact ⟨hb.1, .inl hb.2⟩
    · cases hk
    · cases hb
    · simp only [UserKey.clientMsgID.injEq] at hk
      exact ⟨hk.1, .inr ⟨hk.2, hb⟩⟩
  · rintro ⟨hu, ⟨ht, hs⟩ | ⟨hc, hb⟩⟩
    · exact ⟨_, .inl rfl, .inl (by rw [hu, ht, hs])⟩
    · exact ⟨_, .inr ⟨hc ▸ hb, rfl⟩, .inr ⟨hb, by rw [hu, hc]⟩⟩

end NonokaIM
