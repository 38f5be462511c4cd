import NonokaIM.Library.DocumentUpdate
import NonokaIM.Model.Message
import NonokaIM.Model.Topic

/-! Conversation summaries in PostgreSQL. An upsert is an UPDATE and, if that meets no row, an
INSERT; other statements may come in between. -/

namespace NonokaIM

open DocumentStore

structure Conversation where
  userID : Int
  topic : String
  type : TopicType
  peerID : Int
  peerUsername : String
  lastMsgPreview : List UInt8
  lastMsgAt : Int
  lastSeq : ℕ
  lastReadSeq : ℕ := 0
  unreadCount : ℕ := 0

/-- The unique index on user and topic. -/
def conversationKeys (c : Conversation) : List (Int × String) := [(c.userID, c.topic)]

abbrev Conversations := Collection conversationKeys

def isConversation (userID : Int) (topic : String) (c : Conversation) : Bool :=
  c.userID = userID ∧ c.topic = topic

def truncatePreview (s : List UInt8) (max : ℕ) : List UInt8 :=
  if s.length ≤ max then s else s.take max ++ "...".toUTF8.toList

/-- Images and files carry metadata in their content, which is not shown. -/
def previewForMessage (msg : UpstreamMessage) : List UInt8 :=
  if msg.msgType = 2 then "[图片]".toUTF8.toList
  else if msg.msgType = 3 then "[文件]".toUTF8.toList
  else truncatePreview msg.content 120

structure Summary where
  type : TopicType
  peerID : Int
  peerUsername : String
  preview : List UInt8
  timestamp : Int
  topicSeq : ℕ
  deriving DecidableEq

/-- A message with its number in the topic, and the username that the lookup of the peer finds. -/
structure UpsertArgs where
  msg : UpstreamMessage
  topicSeq : ℕ
  peerUsername : Option String := none

def UpsertArgs.summary (args : UpsertArgs) (type : TopicType) (peerID : Int)
    (peerUsername : String) : Summary where
  type := type
  peerID := peerID
  peerUsername := peerUsername
  preview := previewForMessage args.msg
  timestamp := args.msg.timestamp
  topicSeq := args.topicSeq

/-- The part of `UpsertConversation` before its statements. Only P2P and group topics have
conversations. -/
def summarize (userID : Int) (args : UpsertArgs) : Except String (Option Summary) :=
  match parseTopicType args.msg.topic with
  | .p2p =>
    match extractUserIDsFromP2PTopic args.msg.topic with
    | .error e => .error ("extract p2p user ids: " ++ e)
    | .ok (uid1, uid2) =>
      let peerID := if userID = uid1 then uid2 else uid1
      .ok (some (args.summary .p2p peerID (args.peerUsername.getD "")))
  | .group => .ok (some (args.summary .group 0 ""))
  | _ => .ok none

/-- The sender's copy counts as read, a recipient's copy as one more unread message. -/
def Summary.update (summary : Summary) (bySender : Bool) : Update conversationKeys where
  set c :=
    { c with
      lastMsgPreview := summary.preview
      lastMsgAt := summary.timestamp
      lastSeq := summary.topicSeq
      lastReadSeq := if bySender then summary.topicSeq else c.lastReadSeq
      unreadCount := if bySender then 0 else c.unreadCount + 1
      type := summary.type
      peerID := summary.peerID
      peerUsername := summary.peerUsername }
  keys_set _ := rfl

def Summary.row (summary : Summary) (userID : Int) (topic : String) (bySender : Bool) :
    Conversation where
  userID := userID
  topic := topic
  type := summary.type
  peerID := summary.peerID
  peerUsername := summary.peerUsername
  lastMsgPreview := summary.preview
  lastMsgAt := summary.timestamp
  lastSeq := summary.topicSeq
  lastReadSeq := if bySender then summary.topicSeq else 0
  unreadCount := if bySender then 0 else 1

def statementResult (fault : CallFault) (text : String) : Except String Unit :=
  if fault.reported then .error text else .ok ()

def updateLabel (bySender : Bool) : String :=
  if bySender then "update sender conversation: " else "update recipient conversation: "

inductive UpsertStatus where
  | start
  | missed (summary : Summary)
  | returned (result : Except String Unit)
  deriving DecidableEq

/-- A call after one of its statements, whether the statement wrote the row, and the table. -/
structure Statement where
  status : UpsertStatus
  wrote : Bool
  table : Conversations

section

variable (userID : Int) (args : UpsertArgs)

def bySender : Bool := userID = args.msg.senderID

def upsertUpdate (fault : CallFault) (text : String) (table : Conversations) : Statement :=
  match summarize userID args with
  | .error e => ⟨.returned (.error e), false, table⟩
  | .ok none => ⟨.returned (.ok ()), false, table⟩
  | .ok (some summary) =>
    let affected := table.rows.countP (isConversation userID args.msg.topic)
    let table' :=
      if fault.applied then
        table.update (isConversation userID args.msg.topic) (summary.update (bySender userID args))
      else table
    let status :=
      if affected = 0 ∧ ¬ fault.reported then .missed summary
      else .returned (statementResult fault (updateLabel (bySender userID args) ++ text))
    ⟨status, fault.applied && affected ≠ 0, table'⟩

/-- The second statement: insert the row. A duplicate key means that another insert won, and is
no error. -/
def upsertInsert (summary : Summary) (fault : CallFault) (text : String)
    (table : Conversations) : Statement :=
  let inserted := table.tryInsert (!fault.applied)
    (summary.row userID args.msg.topic (bySender userID args))
  ⟨.returned (statementResult fault ("insert conversation: " ++ text)), inserted.2 = .stored,
    inserted.1⟩

def upsertStatement (fault : CallFault) (text : String) (status : UpsertStatus)
    (table : Conversations) : Statement :=
  match status with
  | .start => upsertUpdate userID args fault text table
  | .missed summary => upsertInsert userID args summary fault text table
  | .returned result => ⟨.returned result, false, table⟩

structure UpsertFault where
  update : CallFault := .none
  insert : CallFault := .none
  text : String := ""

def upsertConversation (fault : UpsertFault) (table : Conversations) : Statement :=
  let first := upsertStatement userID args fault.update fault.text .start table
  let second := upsertStatement userID args fault.insert fault.text first.status first.table
  ⟨second.status, first.wrote || second.wrote, second.table⟩

end

/-- Mark the conversation as read, up to a number or, for 0, to its last message. -/
def readUpdate (upToSeq : ℕ) : Update conversationKeys where
  set c :=
    { c with
      lastReadSeq := if 0 < upToSeq then upToSeq else c.lastSeq
      unreadCount := 0 }
  keys_set _ := rfl

def markRead (userID : Int) (topic : String) (upToSeq : ℕ) (fault : CallFault) (text : String)
    (table : Conversations) : Except String Unit × Conversations :=
  (statementResult fault ("mark conversation read: " ++ text),
    if fault.applied then table.update (isConversation userID topic) (readUpdate upToSeq)
    else table)

end NonokaIM
