import NonokaIM.Model.Storage
import Mathlib.Data.List.Sort

/-! Pulling messages: the queries of the storage, and the WebSocket handler over them. Stored seqs
are signed, so that a successor never wraps around, but a query with it may fail. -/

namespace NonokaIM

open DocumentStore InboxMessage

/-! ## Queries -/

/-- `limit <= 0 || limit > 100` means 50. -/
def clampLimit (limit : Int) : ℕ := if limit ≤ 0 ∨ 100 < limit then 50 else limit.toNat

def ascending {ρ : Type} (seq : ρ → ℕ) (rows : List ρ) : List ρ :=
  rows.insertionSort fun a b => seq a ≤ seq b

def descending {ρ : Type} (seq : ρ → ℕ) (rows : List ρ) : List ρ :=
  rows.insertionSort fun a b => seq b ≤ seq a

def getGroupMessages (s : Store) (topic : String) (lastSeq : ℕ) (limit : Int)
    (fault : Option String) : Except String (List StoredMessage) :=
  match queryFault lastSeq fault with
  | some err => .error err
  | none => .ok ((ascending StoredMessage.topicSeq (s.messages.rows.filter fun r =>
    r.topic = topic ∧ lastSeq < r.topicSeq)).take (clampLimit limit))

def getMentionMessages (s : Store) (userID : Int) (topic : String) (lastSeq : ℕ) (limit : Int)
    (fault : Option String) : Except String (List MentionMessage) :=
  match queryFault lastSeq fault with
  | some err => .error err
  | none => .ok ((ascending MentionMessage.topicSeq (s.mentionInboxes.rows.filter fun r =>
    r.userID = userID ∧ r.topic = topic ∧ lastSeq < r.topicSeq)).take (clampLimit limit))

/-- A group message in the shape of an inbox row; it is never marked as recalled. -/
def StoredMessage.toInbox (userID : Int) (m : StoredMessage) : InboxMessage where
  userID := userID
  msgID := m.msgID
  topic := m.topic
  senderID := m.senderID
  msgType := m.msgType
  content := m.content
  timestamp := m.timestamp
  topicSeq := m.topicSeq
  clientMsgID := m.clientMsgID
  createdAt := m.createdAt

def MentionMessage.toInbox (userID : Int) (m : MentionMessage) : InboxMessage where
  userID := userID
  msgID := m.msgID
  topic := m.topic
  senderID := m.senderID
  msgType := m.msgType
  content := m.content
  timestamp := m.timestamp
  topicSeq := m.topicSeq
  clientMsgID := m.clientMsgID
  createdAt := m.createdAt

def addMissing (results more : List InboxMessage) : List InboxMessage :=
  more.foldl (fun rs m => if rs.any (·.topicSeq = m.topicSeq) then rs else rs ++ [m]) results

structure PullFault where
  inbox : Option String := none
  group : Option String := none
  mention : Option String := none

def getOfflineMessages (s : Store) (userID : Int) (topic : String) (lastSeq : ℕ) (limit : Int)
    (fault : PullFault) : Except String (List InboxMessage) :=
  match queryFault lastSeq fault.inbox with
  | some err => .error err
  | none =>
    let results := (ascending topicSeq (s.inboxes.rows.filter fun r =>
      r.userID = userID ∧ r.topic = topic ∧ lastSeq < r.topicSeq)).take (clampLimit limit)
    let results :=
      if parseTopicType topic = .group then
        -- an error of this query is only logged
        match getGroupMessages s topic lastSeq (clampLimit limit) fault.group with
        | .ok groupMsgs => addMissing results (groupMsgs.map (StoredMessage.toInbox userID))
        | .error _ => results
      else results
    .ok ((ascending topicSeq results).take (clampLimit limit))

/-- The latest messages before `endSeq`, or the latest ones at all, in ascending order, and whether
there are more. -/
def getHistoryMessages (s : Store) (userID : Int) (topic : String) (endSeq : ℕ) (limit : Int)
    (fault : PullFault) : Except String (List InboxMessage × Bool) := do
  let before (seq : ℕ) : Bool := endSeq = 0 ∨ seq < endSeq
  let fetch := clampLimit limit + 1
  let page (merged : List InboxMessage) : List InboxMessage × Bool :=
    (((descending topicSeq merged).take (clampLimit limit)).reverse,
      clampLimit limit < merged.length)
  match parseTopicType topic with
  | .p2p | .system =>
    match queryFault endSeq fault.inbox with
    | some err => .error err
    | none => .ok (page ((descending topicSeq (s.inboxes.rows.filter fun r =>
      r.userID = userID ∧ r.topic = topic ∧ before r.topicSeq)).take fetch))
  | .group =>
    match queryFault endSeq fault.group, queryFault endSeq fault.mention with
    | some err, _ => .error err
    | none, some err => .error err
    | none, none =>
      let stored := (descending StoredMessage.topicSeq (s.messages.rows.filter fun r =>
        r.topic = topic ∧ before r.topicSeq)).take fetch
      let mentions := (descending MentionMessage.topicSeq (s.mentionInboxes.rows.filter fun r =>
        r.userID = userID ∧ r.topic = topic ∧ before r.topicSeq)).take fetch
      .ok (page (addMissing (stored.map (StoredMessage.toInbox userID))
        (mentions.map (MentionMessage.toInbox userID))))
  | .unknown => .error ("unknown topic type: " ++ topic)

/-! ## The handler -/

structure PullRequest where
  topic : String
  lastSeq : ℕ := 0
  limit : Int := 0
  endSeq : ℕ := 0
  deriving DecidableEq

/-- A message of a reply; the handler never fills in the client id. -/
structure PullMessage where
  msgID : Int
  topic : String
  senderID : Int
  msgType : Int
  content : List UInt8
  timestamp : Int
  topicSeq : ℕ
  clientMsgID : String := ""
  recalled : Bool
  deriving DecidableEq

structure PullReply where
  messages : List PullMessage
  hasMore : Bool
  nextSeq : ℕ
  deriving DecidableEq

structure ErrorResponse where
  code : ℕ
  message : String
  deriving DecidableEq

def ErrorResponse.retryable (e : ErrorResponse) : Bool := 5000 ≤ e.code

def InboxMessage.toPull (m : InboxMessage) : PullMessage where
  msgID := m.msgID
  topic := m.topic
  senderID := m.senderID
  msgType := m.msgType
  content := m.content
  timestamp := m.timestamp
  topicSeq := m.topicSeq
  recalled := m.recalled

def StoredMessage.toPull (m : StoredMessage) : PullMessage where
  msgID := m.msgID
  topic := m.topic
  senderID := m.senderID
  msgType := m.msgType
  content := m.content
  timestamp := m.timestamp
  topicSeq := m.topicSeq
  recalled := m.recalled

def MentionMessage.toPull (m : MentionMessage) : PullMessage where
  msgID := m.msgID
  topic := m.topic
  senderID := m.senderID
  msgType := m.msgType
  content := m.content
  timestamp := m.timestamp
  topicSeq := m.topicSeq
  recalled := m.recalled

@[simp] theorem InboxMessage.topicSeq_toPull (m : InboxMessage) :
    m.toPull.topicSeq = m.topicSeq := rfl

@[simp] theorem StoredMessage.topicSeq_toPull (m : StoredMessage) :
    m.toPull.topicSeq = m.topicSeq := rfl

@[simp] theorem MentionMessage.topicSeq_toPull (m : MentionMessage) :
    m.toPull.topicSeq = m.topicSeq := rfl

/-- The sort is stable: a group row stays before the mention row with its seq. -/
def mergeAndSortMessages (groupMsgs : List StoredMessage) (mentionMsgs : List MentionMessage) :
    List PullMessage :=
  ascending PullMessage.topicSeq
    (groupMsgs.map StoredMessage.toPull ++ mentionMsgs.map MentionMessage.toPull)

/-- Who asks: whether the connection is authenticated, and the authorizer if there is one. -/
structure PullContext where
  authed : Bool := true
  userID : Int
  canAccessTopic : Option (String → Bool) := some fun _ => true
  fault : PullFault := {}

def forwardPage (ctx : PullContext) (s : Store) (topic : String) (lastSeq : ℕ) (limit : Int) :
    Except ErrorResponse (List PullMessage × Bool) :=
  match parseTopicType topic with
  | .p2p | .system =>
    match getOfflineMessages s ctx.userID topic lastSeq limit ctx.fault with
    | .error _ => .error ⟨5002, "failed to fetch messages"⟩
    | .ok msgs => .ok (msgs.map toPull, limit ≤ msgs.length ∧ 0 < limit)
  | .group =>
    match getGroupMessages s topic lastSeq limit ctx.fault.group with
    | .error _ => .error ⟨5002, "failed to fetch messages"⟩
    | .ok groupMsgs =>
      let mentionMsgs :=
        match getMentionMessages s ctx.userID topic lastSeq limit ctx.fault.mention with
        | .ok msgs => msgs
        | .error _ => []
      let merged := mergeAndSortMessages groupMsgs mentionMsgs
      let page := if limit < merged.length ∧ 0 < limit then merged.take limit.toNat else merged
      .ok (page, limit ≤ page.length ∧ 0 < limit)
  | .unknown => .error ⟨4009, "invalid topic"⟩

def handlePull (ctx : PullContext) (s : Store) (req : Option PullRequest) :
    Except ErrorResponse PullReply :=
  if !ctx.authed then .error ⟨4001, "authentication required"⟩
  else
    match req with
    | none => .error ⟨4001, "invalid request format"⟩
    | some req =>
      if req.topic = "" then .error ⟨4006, "topic required"⟩
      else
        match normalizeTopic req.topic, ctx.canAccessTopic with
        | .error _, _ => .error ⟨4009, "invalid topic"⟩
        | .ok _, none => .error ⟨4030, "topic authorization unavailable"⟩
        | .ok topic, some canAccess =>
          if !canAccess topic then .error ⟨4030, "topic access denied"⟩
          else if 0 < req.endSeq ∨ req.lastSeq = 0 then
            match getHistoryMessages s ctx.userID topic req.endSeq req.limit ctx.fault with
            | .error _ => .error ⟨5002, "failed to fetch messages"⟩
            | .ok (msgs, more) =>
              .ok ⟨msgs.map toPull, more, (msgs.head?.map topicSeq).getD 0⟩
          else
            match forwardPage ctx s topic req.lastSeq req.limit with
            | .error e => .error e
            | .ok (messages, hasMore) =>
              .ok ⟨messages, hasMore, (messages.getLast?.map (·.topicSeq + 1)).getD 0⟩

end NonokaIM
