import NonokaIM.Library.DocumentUpdate
import NonokaIM.Model.Storage

/-! The storage behind acks and read receipts. -/

namespace NonokaIM

open DocumentStore

def updateFaultFor {ρ : Type} (seq : ℕ) (fault : UpdateFault ρ) : UpdateFault ρ :=
  match seqOverflow seq with
  | none => fault
  | some text => .failed (fun _ => false) text

/-! ## Delivery status -/

structure DeliveryStatus where
  userID : Int
  msgID : Int := 0
  topic : String
  topicSeq : ℕ
  deliveredAt : Int
  deriving DecidableEq

/-- The unique index on user, topic and seq. -/
def deliveryKeys (r : DeliveryStatus) : List (Int × String × ℕ) := [(r.userID, r.topic, r.topicSeq)]

structure GatewayStorage extends Store where
  deliveryStatus : Collection deliveryKeys := .empty

def setInboxDelivered (now : Int) : Update inboxKeys where
  set r := { r with deliveredAt := some now }
  keys_set _ := rfl

def setMentionDelivered (now : Int) : Update mentionKeys where
  set r := { r with deliveredAt := some now }
  keys_set _ := rfl

/-- How the three commands behind an ack end, and which of two errors is read first. -/
structure DeliveryFault where
  inbox : UpdateFault InboxMessage := .none
  mention : UpdateFault MentionMessage := .none
  mentionFirst : Bool := false
  insert : WriteFault := .none
  text : String := ""

/-- Mark a message as delivered for a user; at most one row of a collection matches. -/
def updateDeliveryStatus (now : Int) (userID : Int) (topic : String) (topicSeq : ℕ)
    (fault : DeliveryFault) (s : GatewayStorage) : Except String Unit × GatewayStorage :=
  let inbox := updateMany s.inboxes (updateFaultFor topicSeq fault.inbox)
    (fun r => r.userID = userID ∧ r.topic = topic ∧ r.topicSeq = topicSeq) (setInboxDelivered now)
  let mention := updateMany s.mentionInboxes (updateFaultFor topicSeq fault.mention)
    (fun r => r.userID = userID ∧ r.topic = topic ∧ r.topicSeq = topicSeq) (setMentionDelivered now)
  let s' := { s with inboxes := inbox.1, mentionInboxes := mention.1 }
  match inbox.2, mention.2 with
  | .error e, .error e' =>
    (.error ("update delivery status: " ++ if fault.mentionFirst then e' else e), s')
  | .error e, .ok _ => (.error ("update delivery status: " ++ e), s')
  | .ok _, .error e => (.error ("update delivery status: " ++ e), s')
  | .ok inInbox, .ok inMention =>
    if 0 < inInbox ∨ 0 < inMention then (.ok (), s')
    else
      let inserted := insertOne s'.deliveryStatus fault.insert
        { userID, topic, topicSeq, deliveredAt := now }
      let s'' := { s' with deliveryStatus := inserted.1 }
      match inserted.2 with
      | .ok => (.ok (), s'')
      | .duplicate => (.ok (), s'')
      | .failed => (.error ("insert delivery status: " ++ fault.text), s'')

def setInboxRead (now : Int) : Update inboxKeys where
  set r := { r with read := true, readAt := some now }
  keys_set _ := rfl

def setMentionRead (now : Int) : Update mentionKeys where
  set r := { r with read := true, readAt := some now }
  keys_set _ := rfl

structure ReadFault where
  inbox : UpdateFault InboxMessage := .none
  mention : UpdateFault MentionMessage := .none

def updateReadStatus (now : Int) (userID : Int) (topic : String) (upToSeq : ℕ)
    (fault : ReadFault) (s : GatewayStorage) : Except String Unit × GatewayStorage :=
  match updateMany s.inboxes (updateFaultFor upToSeq fault.inbox)
      (fun r => r.userID = userID ∧ r.topic = topic ∧ r.topicSeq ≤ upToSeq ∧ r.read ≠ true)
      (setInboxRead now) with
  | (inboxes, .error e) => (.error ("update inbox read status: " ++ e), { s with inboxes })
  | (inboxes, .ok _) =>
    match updateMany s.mentionInboxes (updateFaultFor upToSeq fault.mention)
        (fun r => r.userID = userID ∧ r.topic = topic ∧ r.topicSeq ≤ upToSeq ∧ r.read ≠ true)
        (setMentionRead now) with
    | (mentionInboxes, .error e) =>
      (.error ("update mention inbox read status: " ++ e), { s with inboxes, mentionInboxes })
    | (mentionInboxes, .ok _) => (.ok (), { s with inboxes, mentionInboxes })

/-! ## The sender of a message -/

inductive SenderSource where
  | inboxes
  | mentionInboxes
  | messages

/-- Whether the cache can be read and written, the order in which the answers of the three
queries arrive, and their faults. -/
structure SenderEnv where
  cacheReadFails : Bool := false
  cacheWriteFails : Bool := false
  arrival : List SenderSource := [.inboxes, .mentionInboxes, .messages]
  fault : SenderSource → Option String := fun _ => none

/-- `mongo.ErrNoDocuments`, or another error of a query. -/
inductive FindError where
  | noDocuments
  | failed (text : String)

def findSender (s : Store) (topic : String) (topicSeq : ℕ) : SenderSource → Option Int
  | .inboxes =>
    (s.inboxes.rows.find? fun r => r.topic = topic ∧ r.topicSeq = topicSeq).map (·.senderID)
  | .mentionInboxes =>
    (s.mentionInboxes.rows.find? fun r => r.topic = topic ∧ r.topicSeq = topicSeq).map (·.senderID)
  | .messages =>
    (s.messages.rows.find? fun r => r.topic = topic ∧ r.topicSeq = topicSeq).map (·.senderID)

def findSenderIn (env : SenderEnv) (s : Store) (topic : String) (topicSeq : ℕ)
    (source : SenderSource) : Except FindError Int :=
  match seqOverflow topicSeq, env.fault source, findSender s topic topicSeq source with
  | some text, _, _ => .error (.failed text)
  | none, some text, _ => .error (.failed text)
  | none, none, none => .error .noDocuments
  | none, none, some senderID => .ok senderID

def firstAnswer (lastErr : FindError) : List (Except FindError Int) → Except FindError Int
  | [] => .error lastErr
  | .ok senderID :: _ => .ok senderID
  | .error e :: answers => firstAnswer e answers

/-- The sender of a message, from the cache or from whichever collection answers first. -/
def getMessageSender (env : SenderEnv) (topic : String) (topicSeq : ℕ) (s : GatewayStorage) :
    Except String Int × GatewayStorage :=
  match if env.cacheReadFails then none else s.senderCache topic topicSeq with
  | some senderID => (.ok senderID, s)
  | none =>
    match firstAnswer .noDocuments
        (env.arrival.map (findSenderIn env s.toStore topic topicSeq)) with
    | .ok senderID =>
      (.ok senderID, { s with
        toStore := s.cacheMessageSender env.cacheWriteFails topic topicSeq senderID })
    | .error .noDocuments =>
      (.error ("message not found: topic=" ++ topic ++ ", seq=" ++ toString topicSeq), s)
    | .error (.failed text) => (.error ("find message sender: " ++ text), s)

end NonokaIM
