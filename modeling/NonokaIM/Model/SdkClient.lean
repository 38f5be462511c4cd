import NonokaIM.Model.SdkRealtime

/-! The SDK's client: messages in flight, the cache of send results, and what pushes and receipts do
to conversations. A handler is one step; handlers may run in any order. -/

namespace NonokaIM.Sdk

open Sdk.Conversation Function

def Message.upgrade (status : MessageStatus) (msg : Message) : Message :=
  { msg with status := if msg.status.value < status.value then status else msg.status }

def modifyFirst (p : Message → Bool) (f : Message → Message) (messages : List Message) :
    List Message :=
  messages.modify (messages.findIdx p) f

def Message.upgradeUpTo (upToSeq : ℕ) (status : MessageStatus) (msg : Message) : Message :=
  if 0 < msg.topicSeq ∧ msg.topicSeq ≤ upToSeq then msg.upgrade status else msg

def Conversation.updateMessageStatus (upToSeq : ℕ) (status : MessageStatus) (c : Conversation) :
    Conversation :=
  { c with messages := c.messages.map (Message.upgradeUpTo upToSeq status) }

def Conversation.updateSingleMessageStatus (topicSeq : ℕ) (status : MessageStatus)
    (c : Conversation) : Conversation :=
  { c with messages := modifyFirst (·.topicSeq = topicSeq) (Message.upgrade status) c.messages }

/-- Take over what the server assigned, over values that are there. -/
def Message.assign (msgID : Int) (topicSeq : ℕ) (msg : Message) : Message :=
  { msg with
    msgID := if 0 < msgID then msgID else msg.msgID
    topicSeq := if 0 < topicSeq then topicSeq else msg.topicSeq
    status := if msg.status.value < MessageStatus.sent.value then .sent else msg.status }

def Conversation.updateMessageIDAndSeq (clientMsgID : String) (msgID : Int) (topicSeq : ℕ)
    (c : Conversation) : Conversation :=
  if c.messages.any (·.clientMsgID = clientMsgID) then
    { c with
      messages :=
        modifyFirst (·.clientMsgID = clientMsgID) (Message.assign msgID topicSeq) c.messages
      lastSeq := max c.lastSeq topicSeq }
  else c

structure SendResult where
  clientMsgID : String
  msgID : Int
  timestamp : Int
  topicSeq : ℕ
  deriving DecidableEq

/-- An error that the server sent; the delay is in milliseconds. -/
structure ServerError where
  code : Int
  message : String
  retryable : Bool
  retryAfter : ℕ
  deriving DecidableEq

inductive SendError where
  | notConnected
  | requestTimeout
  | serverError
  | transport (message : String)
  | context
  | server (e : ServerError)
  deriving DecidableEq

structure SendCacheEntry where
  result : Except SendError SendResult
  time : Int

/-- Times are in nanoseconds. -/
structure Client where
  userID : Int := 0
  sendCache : String → Option SendCacheEntry := fun _ => none
  sendingMsgs : String → Option Message := fun _ => none
  convs : String → Option Conversation := fun _ => none

/-- `time.Time.Unix` -/
def unix (now : Int) : Int := now / 1000000000

namespace Client

variable (c : Client)

def get (topic : String) : Conversation := (c.convs topic).getD { topic }

def updateConversation (topic : String) (f : Conversation → Conversation) : Client :=
  { c with convs := update c.convs topic (some (f (c.get topic))) }

def setSendCache (clientMsgID : String) (result : Except SendError SendResult) (now : Int) :
    Client :=
  { c with sendCache := update c.sendCache clientMsgID (some ⟨result, now⟩) }

def trackSendingMsg (msg : Message) : Client :=
  { c with sendingMsgs := update c.sendingMsgs msg.clientMsgID (some msg) }

def untrackSendingMsg (clientMsgID : String) : Client :=
  { c with sendingMsgs := update c.sendingMsgs clientMsgID none }

def mapSendingMsgs (f : Message → Message) : Client :=
  { c with sendingMsgs := fun clientMsgID => (c.sendingMsgs clientMsgID).map f }

def handleIncomingMessage (msg : Message) : Client :=
  c.updateConversation msg.topic (appendMessage c.userID · msg)

def handleReadReceipt (topic : String) (upToSeq : ℕ) : Client :=
  let c := c.mapSendingMsgs fun msg =>
    if msg.topic = topic ∧ 0 < msg.topicSeq ∧ msg.topicSeq ≤ upToSeq then
      { msg with status := .read }
    else msg
  c.updateConversation topic (updateMessageStatus upToSeq .read)

def handleDeliveryReceipt (topic : String) (topicSeq : ℕ) : Client :=
  let c := c.mapSendingMsgs fun msg =>
    if msg.topic = topic ∧ msg.topicSeq = topicSeq then { msg with status := .delivered }
    else msg
  c.updateConversation topic (updateSingleMessageStatus topicSeq .delivered)

/-- Only the receipt of a message in flight reaches the conversation. -/
def handleSendReceipt (clientMsgID : String) (msgID : Int) (topic : String) (topicSeq : ℕ)
    (now : Int) : Client :=
  let inFlight := (c.sendingMsgs clientMsgID).isSome
  let c := c.untrackSendingMsg clientMsgID
  let c := c.setSendCache clientMsgID (.ok ⟨clientMsgID, msgID, unix now, topicSeq⟩) now
  if inFlight then
    c.updateConversation topic (updateMessageIDAndSeq clientMsgID msgID topicSeq)
  else c

end Client

/-- What the realtime client hands over. The reader of a read receipt and the message id of a
delivery receipt are for the user's handlers only. -/
inductive ClientEvent where
  | push (push : MessagePush)
  | readReceipt (topic : String) (upToSeq : ℕ)
  | deliveryReceipt (topic : String) (topicSeq : ℕ)
  | sendReceipt (clientMsgID : String) (msgID : Int) (topic : String) (topicSeq : ℕ) (now : Int)
  deriving DecidableEq

def Client.handle (c : Client) : ClientEvent → Client
  | .push push => c.handleIncomingMessage (toSDKMessage push)
  | .readReceipt topic upToSeq => c.handleReadReceipt topic upToSeq
  | .deliveryReceipt topic topicSeq => c.handleDeliveryReceipt topic topicSeq
  | .sendReceipt clientMsgID msgID topic topicSeq now =>
    c.handleSendReceipt clientMsgID msgID topic topicSeq now

end NonokaIM.Sdk
