import NonokaIM.Model.ChatStore

/-! What the hooks of the web client do to the chat store. -/

namespace NonokaIM.Web

def messageKey (clientMsgId : String) (topicSeq msgId : ℕ) : String :=
  if clientMsgId = "" then toString topicSeq ++ "-" ++ toString msgId else clientMsgId

structure RealtimeMessage where
  msgId : ℕ
  topic : String
  senderId : ℕ
  msgType : ℕ
  content : String
  timestamp : ℕ
  topicSeq : ℕ
  clientMsgId : String := ""
  mentionedUserIds : List ℕ := []
  deriving DecidableEq

def RealtimeMessage.toChatMessage (detail : RealtimeMessage) (myId : ℕ) : ChatMessage where
  clientMsgId := messageKey detail.clientMsgId detail.topicSeq detail.msgId
  msgId := some (.number detail.msgId)
  topic := detail.topic
  senderId := .number detail.senderId
  content := detail.content
  msgType := some detail.msgType
  timestamp := detail.timestamp
  topicSeq := some (.number detail.topicSeq)
  status := if detail.senderId = myId then .sent else .delivered

structure PulledMessage where
  msgId : ℕ
  topic : String
  senderId : ℕ
  msgType : ℕ
  content : String
  timestamp : ℕ
  topicSeq : ℕ
  clientMsgId : String := ""
  recalled : Bool := false
  deriving DecidableEq

def PulledMessage.toChatMessage (user : Option JsInt) (m : PulledMessage) : ChatMessage where
  clientMsgId := messageKey m.clientMsgId m.topicSeq m.msgId
  msgId := some (.text m.msgId)
  topic := m.topic
  senderId := .text m.senderId
  content := m.content
  msgType := some m.msgType
  timestamp := m.timestamp
  topicSeq := some (.text m.topicSeq)
  recalled := m.recalled
  status :=
    if m.recalled then .recalled
    else if user = some (.text m.senderId) then .sent
    else .delivered

structure PullReply where
  messages : List PulledMessage
  hasMore : Bool

structure PageRequest where
  topic : String
  lastSeq : ℕ
  limit : ℕ
  endSeq : ℕ
  deriving DecidableEq

def PullReply.chatMessages (reply : PullReply) (user : Option JsInt) : List ChatMessage :=
  reply.messages.map (·.toChatMessage user)

/-- What `sendMessage` and `sendFileMessage` are about to append; `ok` tells whether the packet was
handed to the socket. -/
structure Outgoing where
  clientMsgId : String
  topic : String
  content : String
  msgType : ℕ := 1
  now : ℕ
  ok : Bool
  deriving DecidableEq

def Outgoing.toChatMessage (out : Outgoing) (user : Option JsInt) : ChatMessage where
  clientMsgId := out.clientMsgId
  topic := out.topic
  senderId := user.getD (.number 0)
  content := out.content
  msgType := some out.msgType
  timestamp := out.now
  status := if out.ok then .sending else .failed

structure ConversationInfo where
  topic : String
  type : String
  peerId : ℕ
  peerUsername : String
  lastMsgPreview : String
  lastMsgAt : ℕ
  lastSeq : ℕ
  lastReadSeq : ℕ
  unreadCount : ℕ

structure GroupInfo where
  topic : String
  name : String

def ConversationInfo.toConversation (groups : List GroupInfo) (c : ConversationInfo) :
    Conversation where
  topic := c.topic
  type := if c.type = "group" then .group else .p2p
  peerId := .text c.peerId
  peerUsername := c.peerUsername
  name :=
    if c.type = "group" then
      match groups.find? (·.topic = c.topic) with
      | none => some c.peerUsername
      | some g => if g.name = "" then some c.peerUsername else some g.name
    else some c.peerUsername
  lastMsgPreview := some c.lastMsgPreview
  lastMsgAt := some c.lastMsgAt
  lastSeq := .text c.lastSeq
  lastReadSeq := .text c.lastReadSeq
  unreadCount := c.unreadCount

/-- Every group of the user appears in the list, also without messages. -/
def listedConversations (convs : List ConversationInfo) (groups : List GroupInfo) :
    List Conversation :=
  groups.foldl
    (fun list g =>
      if list.any (·.topic = g.topic) then list
      else list ++ [{ topic := g.topic, type := .group, name := some g.name }])
    (convs.map (·.toConversation groups))

namespace ChatStore

variable (s : ChatStore) (user : Option JsInt)

/-- The rest of the handler reads the conversation as it was before the message was appended. -/
def handleIncomingMessage (detail : RealtimeMessage) : ChatStore :=
  let myId := (user.map JsInt.toNumber).getD 0
  let mentionsMe := myId ≠ 0 ∧ myId ∈ detail.mentionedUserIds
  let appended := s.appendMessage detail.topic (detail.toChatMessage myId)
  if s.activeTopic = some detail.topic then
    appended.markTopicRead detail.topic (.number detail.topicSeq)
  else
    let counted :=
      match s.conversations detail.topic with
      | none => appended
      | some conv =>
        appended.upsertConversation detail.topic { unreadCount := some (conv.unreadCount + 1) }
    if mentionsMe ∧ detail.senderId ≠ myId then counted.markTopicMentioned detail.topic
    else counted

def sendMessage (out : Outgoing) : ChatStore :=
  s.appendMessage out.topic (out.toChatMessage user)

def sendReceipt (topic clientMsgId : String) (msgId topicSeq : ℕ) : ChatStore :=
  s.updateMessageStatus topic clientMsgId
    { msgId := some (.number msgId)
      topicSeq := some (.number topicSeq)
      status := some .sent }

/-- The comparison does not convert: a message that was pulled is not found. -/
def deliveryReceipt (topic : String) (topicSeq : ℕ) : ChatStore :=
  match (s.messages topic).find? (·.topicSeq = some (.number topicSeq)) with
  | none => s
  | some msg =>
    if msg.status = .read then s
    else s.updateMessageStatus topic msg.clientMsgId { status := some .delivered }

def retryMessage (topic : String) (msg : ChatMessage) (ok : Bool) : ChatStore :=
  if msg.status = .failed then
    let sending := s.updateMessageStatus topic msg.clientMsgId { status := some .sending }
    if ok then sending
    else sending.updateMessageStatus topic msg.clientMsgId { status := some .failed }
  else s

def markRead (topic : String) : ChatStore :=
  match s.conversations topic with
  | none => s
  | some conv =>
    if conv.lastSeq = .number 0 ∨ conv.unreadCount = 0 then s
    else s.markTopicRead topic conv.lastSeq

/-- What `loadMore` requests: the page before the first message. `loadingMoreRef` is set while an
earlier request waits for its reply. -/
def loadMore (topic : Option String) (loadingMoreRef : Bool) : Option PageRequest :=
  match topic with
  | none | some "" => none
  | some topic =>
    match s.conversations topic with
    | none => none
    | some conv =>
      if conv.isLoading ∨ conv.hasMore = false then none
      else
        let endSeq := (conv.messages.head?.bind ChatMessage.seq).getD 0
        if endSeq = 0 ∨ loadingMoreRef then none
        else some { topic, lastSeq := 0, limit := 20, endSeq }

def olderPage (topic : String) (reply : PullReply) : ChatStore :=
  s.prependMessages topic (reply.chatMessages user) reply.hasMore

def latestPage (topic : String) (reply : PullReply) : ChatStore :=
  s.upsertConversation topic
    { messages := some (reply.chatMessages user), hasMore := some reply.hasMore }

def refreshConversations (convs : List ConversationInfo) (groups : List GroupInfo) : ChatStore :=
  s.setConversations (listedConversations convs groups)

end ChatStore

/-- What the hooks handle: a change of the active topic, an event of the realtime client, an act of
the user, or the reply to a request. -/
inductive ChatEvent where
  | opened (topic : Option String)
  | message (detail : RealtimeMessage)
  | sendReceipt (topic clientMsgId : String) (msgId topicSeq : ℕ)
  | deliveryReceipt (topic : String) (topicSeq : ℕ)
  | readReceipt (topic : String) (upToSeq : ℕ)
  | recalled (topic : String) (topicSeq msgId : ℕ)
  | send (out : Outgoing)
  | retry (topic : String) (msg : ChatMessage) (ok : Bool)
  | read (topic : String)
  | newChat (topic : String) (peerId : JsInt) (username : String)
  | loading (topic : String) (flag : Bool)
  | latestPage (topic : String) (reply : PullReply)
  | olderPage (topic : String) (reply : PullReply)
  | refreshed (convs : List ConversationInfo) (groups : List GroupInfo)

def chatStep (user : Option JsInt) (s : ChatStore) : ChatEvent → ChatStore
  | .opened topic => s.setActiveTopic topic
  | .message detail => s.handleIncomingMessage user detail
  | .sendReceipt topic clientMsgId msgId topicSeq => s.sendReceipt topic clientMsgId msgId topicSeq
  | .deliveryReceipt topic topicSeq => s.deliveryReceipt topic topicSeq
  | .readReceipt topic upToSeq => s.markTopicRead topic (.number upToSeq)
  | .recalled topic topicSeq msgId => s.recallMessage topic topicSeq msgId
  | .send out => s.sendMessage user out
  | .retry topic msg ok => s.retryMessage topic msg ok
  | .read topic => s.markRead topic
  | .newChat topic peerId username =>
    s.upsertConversation topic
      { type := some .p2p, peerId := some peerId, peerUsername := some username }
  | .loading topic flag => s.setMessagesLoading topic flag
  | .latestPage topic reply => s.latestPage user topic reply
  | .olderPage topic reply => s.olderPage user topic reply
  | .refreshed convs groups => s.refreshConversations convs groups

inductive RealtimeEvent where
  | message (detail : RealtimeMessage)
  | sendReceipt (topic clientMsgId : String) (msgId topicSeq : ℕ)
  | deliveryReceipt (topic : String) (topicSeq : ℕ)
  | readReceipt (topic : String) (upToSeq readerId : ℕ)
  | recallNotice (topic : String) (topicSeq msgId : ℕ)

/-- The handler of a read receipt does not look at the reader. -/
def RealtimeEvent.toChatEvent : RealtimeEvent → ChatEvent
  | .message detail => .message detail
  | .sendReceipt topic clientMsgId msgId topicSeq => .sendReceipt topic clientMsgId msgId topicSeq
  | .deliveryReceipt topic topicSeq => .deliveryReceipt topic topicSeq
  | .readReceipt topic upToSeq _ => .readReceipt topic upToSeq
  | .recallNotice topic topicSeq msgId => .recalled topic topicSeq msgId

def realtimeStep (user : Option JsInt) (s : ChatStore) (e : RealtimeEvent) : ChatStore :=
  chatStep user s e.toChatEvent

structure LoadState where
  store : ChatStore := {}
  loadedRef : String → Bool := fun _ => false
  inFlightRef : String → Bool := fun _ => false

namespace LoadState

variable (h : LoadState) (user : Option JsInt) (topic : String)

def requests : Bool := user.isSome && !(h.loadedRef topic || h.inFlightRef topic)

def startLatest : LoadState :=
  { h with
    inFlightRef := Function.update h.inFlightRef topic true
    store := h.store.setMessagesLoading topic true }

/-- `loadLatest` from the reply on; there is none if the request fails. -/
def finishLatest (reply : Option PullReply) : LoadState :=
  let store :=
    match reply with
    | none => h.store
    | some reply => h.store.latestPage user topic reply
  { store := store.setMessagesLoading topic false
    loadedRef := Function.update h.loadedRef topic true
    inFlightRef := Function.update h.inFlightRef topic false }

/-- `loadLatest`, where `events` are handled while it waits for the reply. -/
def loadLatest (events : List ChatEvent) (reply : Option PullReply) : LoadState :=
  if h.requests user topic then
    let started := h.startLatest topic
    { started with store := events.foldl (chatStep user) started.store }.finishLatest
      user topic reply
  else { h with store := events.foldl (chatStep user) h.store }

end LoadState

end NonokaIM.Web
