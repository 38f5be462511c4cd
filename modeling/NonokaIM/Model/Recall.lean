import NonokaIM.Library.DocumentUpdate
import NonokaIM.Model.Storage

/-! Recalling a message: one update on each of the three collections that hold its copies. -/

namespace NonokaIM

open DocumentStore

structure RecallArgs where
  topic : String
  topicSeq : ℕ
  msgID : Int := 0
  senderID : Int
  window : Int := 0

structure RecallFields where
  msgID : Int
  topic : String
  senderID : Int
  content : List UInt8
  topicSeq : ℕ
  recalled : Bool
  createdAt : Int

def StoredMessage.recallFields (r : StoredMessage) : RecallFields :=
  ⟨r.msgID, r.topic, r.senderID, r.content, r.topicSeq, r.recalled, r.createdAt⟩

def InboxMessage.recallFields (r : InboxMessage) : RecallFields :=
  ⟨r.msgID, r.topic, r.senderID, r.content, r.topicSeq, r.recalled, r.createdAt⟩

def MentionMessage.recallFields (r : MentionMessage) : RecallFields :=
  ⟨r.msgID, r.topic, r.senderID, r.content, r.topicSeq, r.recalled, r.createdAt⟩

def RecallArgs.selects (args : RecallArgs) (now : Int) (r : RecallFields) : Bool :=
  decide (r.topic = args.topic) && decide (r.topicSeq = args.topicSeq) &&
    decide (r.senderID = args.senderID) && !r.recalled &&
    (decide (args.msgID ≤ 0) || decide (r.msgID = args.msgID)) &&
    (decide (args.window ≤ 0) || decide (now - args.window ≤ r.createdAt))

/-- `$set: {recalled: true, content: ""}` on a group message. -/
def recallStored : Update messageKeys where
  set r := { r with recalled := true, content := [] }
  keys_set _ := rfl

def recallInbox : Update inboxKeys where
  set r := { r with recalled := true, content := [] }
  keys_set _ := rfl

def recallMention : Update mentionKeys where
  set r := { r with recalled := true, content := [] }
  keys_set _ := rfl

structure RecallFault where
  messages : UpdateFault StoredMessage := .none
  inboxes : UpdateFault InboxMessage := .none
  mentionInboxes : UpdateFault MentionMessage := .none

def RecallFault.none : RecallFault := {}

/-- `ErrRecallNotFound`, or the wrapped error of an update. -/
inductive RecallError where
  | notFound
  | update (text : String)
  deriving DecidableEq

def RecallError.text : RecallError → String
  | .notFound => "message not found or already recalled"
  | .update text => text

def recallMessage (args : RecallArgs) (now : Int) (fault : RecallFault) (s : Store) :
    Except RecallError Unit × Store :=
  match updateMany s.messages fault.messages
      (fun r => args.selects now r.recallFields) recallStored with
  | (messages, .error e) =>
    (.error (.update ("recall message in messages: " ++ e)), { s with messages })
  | (messages, .ok inMessages) =>
    match updateMany s.inboxes fault.inboxes
        (fun r => args.selects now r.recallFields) recallInbox with
    | (inboxes, .error e) =>
      (.error (.update ("recall message in inboxes: " ++ e)), { s with messages, inboxes })
    | (inboxes, .ok inInboxes) =>
      match updateMany s.mentionInboxes fault.mentionInboxes
          (fun r => args.selects now r.recallFields) recallMention with
      | (mentionInboxes, .error e) =>
        (.error (.update ("recall message in mention_inboxes: " ++ e)),
          { s with messages, inboxes, mentionInboxes })
      | (mentionInboxes, .ok inMentions) =>
        (if inMessages + inInboxes + inMentions = 0 then .error .notFound else .ok (),
          { s with messages, inboxes, mentionInboxes })

end NonokaIM
