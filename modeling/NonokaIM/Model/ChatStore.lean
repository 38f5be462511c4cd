import Mathlib.Data.List.Sort
import NonokaIM.Library.BinaryRounding
import NonokaIM.Model.Topic

/-! The chat store of the web client: its conversations and the actions that change them. -/

namespace NonokaIM.Web

/-- A 64-bit integer as the client holds it: a number, already decoded from the protocol, or a
decimal text of a JSON reply. -/
inductive JsInt where
  | number (n : ℕ)
  | text (n : ℕ)
  deriving DecidableEq

namespace JsInt

/-- A text is rounded to the 53 significant bits of a number. -/
def toNumber : JsInt → ℕ
  | .number n => n
  | .text n => BinaryRounding.roundNat 53 n

/-- The operator `<=`, which compares two texts as texts. -/
def le : JsInt → JsInt → Bool
  | .text m, .text n => m.repr ≤ n.repr
  | m, n => m.toNumber ≤ n.toNumber

end JsInt

inductive MessageStatus where
  | sending
  | sent
  | delivered
  | read
  | failed
  | recalled
  deriving DecidableEq

structure ChatMessage where
  clientMsgId : String
  msgId : Option JsInt := none
  topic : String
  senderId : JsInt
  content : String
  msgType : Option ℕ := none
  timestamp : ℕ
  topicSeq : Option JsInt := none
  status : MessageStatus
  recalled : Bool := false
  deriving DecidableEq

def ChatMessage.seq (m : ChatMessage) : Option ℕ := m.topicSeq.map JsInt.toNumber

inductive ConversationType where
  | p2p
  | group
  deriving DecidableEq

structure Conversation where
  topic : String
  type : ConversationType
  peerId : JsInt := .number 0
  peerUsername : String := ""
  name : Option String := none
  lastMsgPreview : Option String := none
  lastMsgAt : Option ℕ := none
  lastSeq : JsInt := .number 0
  lastReadSeq : JsInt := .number 0
  unreadCount : ℕ := 0
  messages : List ChatMessage := []
  hasMore : Bool := true
  isLoading : Bool := false
  deriving DecidableEq

/-- Groups, the names of their members and the state of the connection are left out. -/
structure ChatStore where
  conversations : String → Option Conversation := fun _ => none
  activeTopic : Option String := none
  mentionedTopics : String → Bool := fun _ => false

/-! ## Messages -/

def recalledText : String := "This message was recalled"

def previewForMessage (msg : ChatMessage) : String :=
  if msg.recalled then recalledText
  else if msg.msgType = some 2 then "[图片]"
  else if msg.msgType = some 3 then "[文件]"
  else msg.content

def insertBefore (messages : List ChatMessage) (msg : ChatMessage) (seq : ℕ) : List ChatMessage :=
  let idx := messages.findIdx fun m => m.seq.any (seq < ·)
  messages.take idx ++ msg :: messages.drop idx

def insertBySeq (messages : List ChatMessage) (msg : ChatMessage) : List ChatMessage :=
  match msg.seq, messages.getLast?.bind ChatMessage.seq with
  | some seq, some last => if last ≤ seq then messages ++ [msg] else insertBefore messages msg seq
  -- the message or the last one is pending, or there is none
  | _, _ => messages ++ [msg]

def ChatMessage.existsIn (msg : ChatMessage) (messages : List ChatMessage) : Bool :=
  messages.any fun m => m.clientMsgId = msg.clientMsgId || (msg.seq.isSome && m.seq = msg.seq)

def addMessage (messages : List ChatMessage) (msg : ChatMessage) : List ChatMessage :=
  if msg.existsIn messages then messages else insertBySeq messages msg

/-- `Partial<ChatMessage>`, with the fields that the hooks set. -/
structure MessagePatch where
  msgId : Option JsInt := none
  topicSeq : Option JsInt := none
  status : Option MessageStatus := none
  deriving DecidableEq

def ChatMessage.patch (m : ChatMessage) (p : MessagePatch) : ChatMessage :=
  { m with
    msgId := p.msgId <|> m.msgId
    topicSeq := p.topicSeq <|> m.topicSeq
    status := p.status.getD m.status }

def patchMessage (messages : List ChatMessage) (clientMsgId : String) (p : MessagePatch) :
    List ChatMessage :=
  messages.modify (messages.findIdx (·.clientMsgId = clientMsgId)) (·.patch p)

/-- What is sorted by: pending messages count as 0. -/
def ChatMessage.sortKey (m : ChatMessage) : ℕ := m.seq.getD 0

def newMsgs (messages msgs : List ChatMessage) : List ChatMessage :=
  let existingSeqs := messages.filterMap ChatMessage.seq
  let existingClientIds := (messages.map ChatMessage.clientMsgId).filter (· ≠ "")
  msgs.filter fun m =>
    !m.seq.any (existingSeqs.contains ·) && !existingClientIds.contains m.clientMsgId

/-- The sort is stable, as the one of arrays is. -/
def sortBySeq (messages : List ChatMessage) : List ChatMessage :=
  messages.insertionSort fun a b => a.sortKey ≤ b.sortKey

def ChatMessage.markRecalled (topicSeq msgId : ℕ) (m : ChatMessage) : ChatMessage :=
  if m.seq.isSome ∧
      (m.seq = some topicSeq ∨ (msgId ≠ 0 ∧ m.msgId.map JsInt.toNumber = some msgId)) then
    { m with content := recalledText, status := .recalled, recalled := true }
  else m

def ChatMessage.markRead (peerId upToSeq : JsInt) (m : ChatMessage) : ChatMessage :=
  if m.senderId ≠ peerId ∧ m.topicSeq.any (·.le upToSeq) then { m with status := .read } else m

/-! ## Actions -/

/-- `Partial<Conversation>`, with the fields that the callers set. -/
structure ConversationPatch where
  type : Option ConversationType := none
  peerId : Option JsInt := none
  peerUsername : Option String := none
  unreadCount : Option ℕ := none
  messages : Option (List ChatMessage) := none
  hasMore : Option Bool := none
  deriving DecidableEq

def Conversation.patch (c : Conversation) (p : ConversationPatch) : Conversation :=
  { c with
    type := p.type.getD c.type
    peerId := p.peerId.getD c.peerId
    peerUsername := p.peerUsername.getD c.peerUsername
    unreadCount := p.unreadCount.getD c.unreadCount
    messages := p.messages.getD c.messages
    hasMore := p.hasMore.getD c.hasMore }

namespace Conversation

variable (conv : Conversation)

def append (msg : ChatMessage) : Conversation :=
  { conv with
    messages := addMessage conv.messages msg
    lastMsgPreview := some (previewForMessage msg)
    lastMsgAt := some msg.timestamp
    lastSeq :=
      if msg.seq.any (conv.lastSeq.toNumber < ·) then .number (msg.seq.getD 0) else conv.lastSeq }

def read (upToSeq : JsInt) : Conversation :=
  { conv with
    messages := conv.messages.map (·.markRead conv.peerId upToSeq)
    unreadCount := 0
    lastReadSeq := .number (max conv.lastReadSeq.toNumber upToSeq.toNumber) }

def recalled (topicSeq msgId : ℕ) : Conversation :=
  { conv with
    messages := conv.messages.map (·.markRecalled topicSeq msgId)
    lastMsgPreview := some recalledText }

def patchStatus (clientMsgId : String) (p : MessagePatch) : Conversation :=
  { conv with messages := patchMessage conv.messages clientMsgId p }

end Conversation

namespace ChatStore

variable (s : ChatStore) (topic : String)

def ensureConversation : Conversation :=
  (s.conversations topic).getD { topic, type := if hasPrefix topic "p2p_" then .p2p else .group }

def setConversation (conv : Conversation) : ChatStore :=
  { s with conversations := Function.update s.conversations topic (some conv) }

/-- A known conversation keeps its messages, and stays if the server does not list it. -/
def setConversations (list : List Conversation) : ChatStore :=
  { s with
    conversations := fun topic =>
      match list.reverse.find? (·.topic = topic) with
      | none => s.conversations topic
      | some conv =>
        let existing := s.conversations topic
        some
          { conv with
            messages := (existing.map (·.messages)).getD conv.messages
            name :=
              match conv.name with
              | none | some "" => existing.bind (·.name)
              | some name => some name
            peerUsername :=
              if conv.peerUsername = "" then (existing.map (·.peerUsername)).getD ""
              else conv.peerUsername } }

def upsertConversation (conv : ConversationPatch) : ChatStore :=
  s.setConversation topic ((s.ensureConversation topic).patch conv)

def setActiveTopic (topic : Option String) : ChatStore := { s with activeTopic := topic }

def appendMessage (msg : ChatMessage) : ChatStore :=
  s.setConversation topic ((s.ensureConversation topic).append msg)

def updateMessageStatus (clientMsgId : String) (p : MessagePatch) : ChatStore :=
  match s.conversations topic with
  | none => s
  | some conv => s.setConversation topic (conv.patchStatus clientMsgId p)

def recallMessage (topicSeq msgId : ℕ) : ChatStore :=
  match s.conversations topic with
  | none => s
  | some conv => s.setConversation topic (conv.recalled topicSeq msgId)

def setMessagesLoading (flag : Bool) : ChatStore :=
  s.setConversation topic { s.ensureConversation topic with isLoading := flag }

def prependMessages (msgs : List ChatMessage) (hasMore : Bool) : ChatStore :=
  let conv := s.ensureConversation topic
  let new := newMsgs conv.messages msgs
  let last := new.getLast?.bind ChatMessage.seq
  s.setConversation topic
    { conv with
      messages := sortBySeq (new ++ conv.messages)
      hasMore
      lastSeq :=
        if last.any (conv.lastSeq.toNumber < ·) then .number (last.getD 0) else conv.lastSeq }

def markTopicRead (upToSeq : JsInt) : ChatStore :=
  match s.conversations topic with
  | none => s
  | some conv =>
    { s.setConversation topic (conv.read upToSeq) with
      mentionedTopics := Function.update s.mentionedTopics topic false }

def markTopicMentioned : ChatStore :=
  { s with mentionedTopics := Function.update s.mentionedTopics topic true }

def reset : ChatStore := {}

def messages : List ChatMessage := (s.ensureConversation topic).messages

end ChatStore

/-- The actions of the store. Those on groups and on the state of the connection are left out with
their fields. -/
inductive StoreAction where
  | setConversations (list : List Conversation)
  | upsertConversation (topic : String) (conv : ConversationPatch)
  | setActiveTopic (topic : Option String)
  | appendMessage (topic : String) (msg : ChatMessage)
  | updateMessageStatus (topic clientMsgId : String) (patch : MessagePatch)
  | recallMessage (topic : String) (topicSeq msgId : ℕ)
  | setMessagesLoading (topic : String) (flag : Bool)
  | prependMessages (topic : String) (msgs : List ChatMessage) (hasMore : Bool)
  | markTopicRead (topic : String) (upToSeq : JsInt)
  | markTopicMentioned (topic : String)
  | reset

def ChatStore.act (s : ChatStore) : StoreAction → ChatStore
  | .setConversations list => s.setConversations list
  | .upsertConversation topic conv => s.upsertConversation topic conv
  | .setActiveTopic topic => s.setActiveTopic topic
  | .appendMessage topic msg => s.appendMessage topic msg
  | .updateMessageStatus topic clientMsgId patch => s.updateMessageStatus topic clientMsgId patch
  | .recallMessage topic topicSeq msgId => s.recallMessage topic topicSeq msgId
  | .setMessagesLoading topic flag => s.setMessagesLoading topic flag
  | .prependMessages topic msgs hasMore => s.prependMessages topic msgs hasMore
  | .markTopicRead topic upToSeq => s.markTopicRead topic upToSeq
  | .markTopicMentioned topic => s.markTopicMentioned topic
  | .reset => ChatStore.reset

end NonokaIM.Web
