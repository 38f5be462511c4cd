import NonokaIM.Model.MessageService

/-! The SDK's conversations, and the pull of offline messages after a reconnect, by WebSocket or by
HTTP. -/

namespace NonokaIM.Sdk

inductive MessageStatus where
  | sending
  | sent
  | delivered
  | read
  | failed
  deriving DecidableEq

def MessageStatus.value : MessageStatus → ℕ
  | .sending => 0
  | .sent => 1
  | .delivered => 2
  | .read => 3
  | .failed => 4

structure Message where
  msgID : Int
  topic : String
  senderID : Int
  msgType : Int
  content : List UInt8
  timestamp : Int
  topicSeq : ℕ
  status : MessageStatus
  clientMsgID : String
  deriving DecidableEq

def toSDKMessages (msgs : List PullMessage) : List Message :=
  msgs.map fun m =>
    { msgID := m.msgID
      topic := m.topic
      senderID := m.senderID
      msgType := m.msgType
      content := m.content
      timestamp := m.timestamp
      topicSeq := m.topicSeq
      status := .delivered
      clientMsgID := m.clientMsgID }

/-- Take over what the server assigned, without overwriting values that are there. -/
def mergeMessageMetadata (dst src : Message) : Message :=
  { dst with
    msgID := if 0 < src.msgID ∧ dst.msgID = 0 then src.msgID else dst.msgID
    topicSeq := if 0 < src.topicSeq ∧ dst.topicSeq = 0 then src.topicSeq else dst.topicSeq
    clientMsgID :=
      if src.clientMsgID ≠ "" ∧ dst.clientMsgID = "" then src.clientMsgID else dst.clientMsgID
    status := if dst.status.value < src.status.value then src.status else dst.status }

structure Conversation where
  topic : String
  messages : List Message := []
  lastSeq : ℕ := 0
  unreadCount : ℕ := 0

def mergeFirst (p : Message → Bool) (msg : Message) : List Message → Option (List Message)
  | [] => none
  | m :: ms =>
    if p m then some (mergeMessageMetadata m msg :: ms)
    else (mergeFirst p msg ms).map (m :: ·)

/-- The messages with a duplicate of `msg` merged: by its seq, or else by its client id. -/
def mergeDuplicate (msg : Message) (messages : List Message) : Option (List Message) :=
  let bySeq :=
    if 0 < msg.topicSeq then mergeFirst (·.topicSeq = msg.topicSeq) msg messages else none
  let byClientMsgID :=
    if msg.clientMsgID ≠ "" then mergeFirst (·.clientMsgID = msg.clientMsgID) msg messages
    else none
  bySeq <|> byClientMsgID

def Conversation.appendMessage (userID : Int) (c : Conversation) (msg : Message) : Conversation :=
  match mergeDuplicate msg c.messages with
  | some messages => { c with messages, lastSeq := max c.lastSeq msg.topicSeq }
  | none =>
    { c with
      messages := c.messages ++ [msg]
      lastSeq := max c.lastSeq msg.topicSeq
      unreadCount := if msg.senderID ≠ userID then c.unreadCount + 1 else c.unreadCount }

structure PullResult where
  messages : List Message
  hasMore : Bool
  nextSeq : ℕ

/-- Where a pull goes, and for the HTTP service one of the orders its sort may choose. -/
inductive PullRoute where
  | realtime
  | http (sorter : SliceSort)

def pullMessagesInternal (route : PullRoute) (ctx : PullContext) (s : Store) (topic : String)
    (lastSeq : ℕ) (limit : Int) : Except String PullResult :=
  let reply : Except String PullReply := match route with
    | .realtime =>
      (handlePull ctx s (some { topic, lastSeq, limit })).mapError ErrorResponse.message
    | .http sorter => MessageService.pullMessages sorter ctx s { topic, lastSeq, limit }
  reply.map fun reply => ⟨toSDKMessages reply.messages, reply.hasMore, reply.nextSeq⟩

def Conversation.pullOffline (route : PullRoute) (ctx : PullContext) (s : Store)
    (c : Conversation) : Except String Conversation :=
  match pullMessagesInternal route ctx s c.topic c.lastSeq 50 with
  | .error e => .error ("pull offline for topic " ++ c.topic ++ ": " ++ e)
  | .ok result => .ok (result.messages.foldl (Conversation.appendMessage ctx.userID) c)

/-- The conversations after the pull, each by the route that its topic has then, and the errors by
topic. -/
def pullOfflineForAll (route : String → PullRoute) (ctx : PullContext) (s : Store) :
    List Conversation → List Conversation × List (String × String)
  | [] => ([], [])
  | c :: convs =>
    let rest := pullOfflineForAll route ctx s convs
    match c.pullOffline (route c.topic) ctx s with
    | .ok c' => (c' :: rest.1, rest.2)
    | .error e => (c :: rest.1, (c.topic, e) :: rest.2)

end NonokaIM.Sdk
