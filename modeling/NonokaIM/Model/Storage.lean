import NonokaIM.Model.Topic
import NonokaIM.Model.Message
import Mathlib.Algebra.Group.Nat.Defs

/-! The message collections and the saves. Every operation takes the faults of its store calls. -/

namespace NonokaIM

open DocumentStore

/-- The Mongo collections, and the sender cache kept in Redis. -/
structure Store where
  inboxes : Collection inboxKeys := .empty
  messages : Collection messageKeys := .empty
  mentionInboxes : Collection mentionKeys := .empty
  agentOutbox : Collection outboxKeys := .empty
  topicSeqs : String → Option ℕ := fun _ => none
  senderCache : String → ℕ → Option Int := fun _ _ => none

/-- A command with a seq beyond the signed range fails before it is sent. -/
def seqOverflow (seq : ℕ) : Option String :=
  if seq < 2 ^ 63 then none else some (toString seq ++ " overflows int64")

/-- How a query with this seq in its filter ends. What the storage puts before the text is left
out. -/
def queryFault (seq : ℕ) (fault : Option String) : Option String := (seqOverflow seq).or fault

theorem queryFault_of_lt {seq : ℕ} (h : seq < 2 ^ 63) (fault : Option String) :
    queryFault seq fault = fault := by
  rw [queryFault, seqOverflow, if_pos h, Option.none_or]

theorem queryFault_of_le {seq : ℕ} (h : 2 ^ 63 ≤ seq) (fault : Option String) :
    queryFault seq fault = some (toString seq ++ " overflows int64") := by
  rw [queryFault, seqOverflow, if_neg (Nat.not_lt.mpr h), Option.some_or]

/-- The faults of one save: those of the insert, whether the write of the sender cache for
document `i` fails, and the text of the driver's error. -/
structure SaveFault where
  insert : WriteFault := .none
  cacheFails : ℕ → Bool := fun _ => false
  text : String := ""

def SaveFault.none : SaveFault := {}

def Store.cacheMessageSender (s : Store) (fails : Bool) (topic : String) (topicSeq : ℕ)
    (senderID : Int) : Store :=
  if fails then s
  else { s with senderCache := fun t q =>
           if t = topic ∧ q = topicSeq then some senderID else s.senderCache t q }

variable (now : Int) (msg : UpstreamMessage) (msgID : Int) (topicSeq : ℕ)

def newInboxMessage (userID : Int) (read : Bool) : InboxMessage where
  userID := userID
  msgID := msgID
  topic := msg.topic
  senderID := msg.senderID
  msgType := msg.msgType
  content := msg.content
  timestamp := msg.timestamp
  topicSeq := topicSeq
  clientMsgID := msg.clientMsgID
  read := read
  createdAt := now

def newStoredMessage : StoredMessage where
  msgID := msgID
  topic := msg.topic
  senderID := msg.senderID
  msgType := msg.msgType
  content := msg.content
  timestamp := msg.timestamp
  topicSeq := topicSeq
  clientMsgID := msg.clientMsgID
  createdAt := now

def newMentionMessage (userID : Int) : MentionMessage where
  userID := userID
  msgID := msgID
  topic := msg.topic
  senderID := msg.senderID
  msgType := msg.msgType
  content := msg.content
  timestamp := msg.timestamp
  topicSeq := topicSeq
  clientMsgID := msg.clientMsgID
  createdAt := now

/-- Whoever of the two participants is not the sender; the first one for a stranger. -/
def receiverOf (msg : UpstreamMessage) (uid1 uid2 : Int) : Int :=
  if msg.senderID = uid1 then uid2 else uid1

def p2pRows (receiverID : Int) : List InboxMessage :=
  [newInboxMessage now msg msgID topicSeq receiverID false,
    newInboxMessage now msg msgID topicSeq msg.senderID true]

/-! ## Saving -/

/-- Write a P2P message to both inboxes; the result has the recipients and whether it is a
duplicate. -/
def saveP2PMessage (fault : SaveFault) (s : Store) : Except String (List Int × Bool) × Store :=
  match extractUserIDsFromP2PTopic msg.topic with
  | .error e => (.error e, s)
  | .ok (uid1, uid2) =>
    let receiverID := receiverOf msg uid1 uid2
    let inserted := insertBulk s.inboxes fault.insert (p2pRows now msg msgID topicSeq receiverID)
    let s' := { s with inboxes := inserted.1 }
    let cached := s'.cacheMessageSender (fault.cacheFails 0) msg.topic topicSeq msg.senderID
    match inserted.2 with
    | .ok => (.ok ([receiverID, msg.senderID], false), cached)
    | .bulk fates =>
      if allDuplicate fates then (.ok ([receiverID, msg.senderID], true), cached)
      else (.error ("insert p2p inbox messages: " ++ fault.text), s')
    | .failed => (.error ("insert p2p inbox messages: " ++ fault.text), s')

def saveGroupMessage (fault : SaveFault) (s : Store) : Except String Bool × Store :=
  let inserted := insertOne s.messages fault.insert (newStoredMessage now msg msgID topicSeq)
  let s' := { s with messages := inserted.1 }
  match inserted.2 with
  | .ok =>
    (.ok false, s'.cacheMessageSender (fault.cacheFails 0) msg.topic topicSeq msg.senderID)
  | .duplicate => (.ok true, s')
  | .failed => (.error ("insert group message: " ++ fault.text), s')

def saveSystemMessage (fault : SaveFault) (s : Store) : Except String (List Int × Bool) × Store :=
  match extractSystemTarget msg.topic with
  | .error e => (.error e, s)
  | .ok targetUID =>
    let inserted :=
      insertOne s.inboxes fault.insert (newInboxMessage now msg msgID topicSeq targetUID false)
    let s' := { s with inboxes := inserted.1 }
    match inserted.2 with
    | .ok => (.ok ([targetUID], false),
        s'.cacheMessageSender (fault.cacheFails 0) msg.topic topicSeq msg.senderID)
    | .duplicate => (.ok ([targetUID], true), s')
    | .failed => (.error ("insert system inbox message: " ++ fault.text), s')

def saveMentionInbox (mentionedUserIDs : List Int) (fault : SaveFault) (s : Store) :
    Except String Unit × Store :=
  if mentionedUserIDs = [] then (.ok (), s)
  else
    let inserted := insertBulk s.mentionInboxes fault.insert
      (mentionedUserIDs.map (newMentionMessage now msg msgID topicSeq))
    let s' := { s with mentionInboxes := inserted.1 }
    match inserted.2 with
    | .ok => (.ok (), s')
    | .bulk fates =>
      if allDuplicate fates then (.ok (), s')
      else (.error ("insert mention inbox: " ++ fault.text), s')
    | .failed => (.error ("insert mention inbox: " ++ fault.text), s')

/-- Raise the stored maximum of a topic with `$max`, creating the document if needed. -/
def backupTopicSeq (topic : String) (seq : ℕ) (fault : CallFault) (s : Store) :
    Except String Unit × Store :=
  let s' := if fault.applied then
      { s with topicSeqs := fun t =>
          if t = topic then some (max seq ((s.topicSeqs topic).getD 0)) else s.topicSeqs t }
    else s
  (if fault.reported then .error "backup topic seq: " else .ok (), s')

def getTopicMaxSeq (topic : String) (s : Store) : ℕ := (s.topicSeqs topic).getD 0

/-! ## Batches of group messages -/

structure GroupBatchItem where
  msg : UpstreamMessage
  msgID : Int
  topicSeq : ℕ

def GroupBatchItem.row (now : Int) (item : GroupBatchItem) : StoredMessage :=
  newStoredMessage now item.msg item.msgID item.topicSeq

def cacheSenders (fails : ℕ → Bool) : List GroupBatchItem → Store → Store
  | [], s => s
  | item :: items, s =>
    cacheSenders (fun i => fails (i + 1)) items
      (s.cacheMessageSender (fails 0) item.msg.topic item.topicSeq item.msg.senderID)

/-- Insert the batch in one unordered command. The result is the number of inserted documents
and whether the whole batch counts as duplicate. -/
def saveGroupMessagesBatch (now : Int) (items : List GroupBatchItem) (fault : SaveFault)
    (s : Store) : Except String (ℕ × Bool) × Store :=
  if items = [] then (.ok (0, false), s)
  else
    let inserted := insertBulk s.messages fault.insert (items.map (GroupBatchItem.row now))
    let s' := { s with messages := inserted.1 }
    match inserted.2 with
    | .ok => (.ok (items.length, false), cacheSenders fault.cacheFails items s')
    | .bulk fates =>
      if allDuplicate fates then (.ok (0, true), s')
      else (.ok (fates.count .stored, false), s')
    | .failed => (.error ("insert group message batch: " ++ fault.text), s')

structure FlushFault where
  batch : SaveFault := .none
  single : ℕ → SaveFault := fun _ => .none

def saveEach (now : Int) (fault : ℕ → SaveFault) :
    List GroupBatchItem → Store → List (Except String Bool) × Store
  | [], s => ([], s)
  | item :: items, s =>
    let first := saveGroupMessage now item.msg item.msgID item.topicSeq (fault 0) s
    let rest := saveEach now (fun i => fault (i + 1)) items first.2
    (first.1 :: rest.1, rest.2)

/-- The result that a flush gives to all its items after the batch insert, or nothing when it
has to save them one by one. -/
def batchVerdict (count : ℕ) : Except String (ℕ × Bool) → Option Bool
  | .error _ => none
  | .ok (_, true) => some true
  | .ok (inserted, false) => if inserted < count then none else some false

/-- Persist the pending items; the result of each item goes to the handler that waits for it. -/
def flush (now : Int) (items : List GroupBatchItem) (fault : FlushFault) (s : Store) :
    List (Except String Bool) × Store :=
  let batch := saveGroupMessagesBatch now items fault.batch s
  match batchVerdict items.length batch.1 with
  | some isDuplicate => (items.map fun _ => .ok isDuplicate, batch.2)
  | none => saveEach now fault.single items batch.2

/-! ## Saving together with an agent event -/

structure TxFault where
  session : Bool := false
  outbox : WriteFault := .none
  commit : CallFault := .none
  text : String := ""

def TxFault.none : TxFault := {}

/-- `NewMessageEvent`, over the hex digest of the event's base string. -/
def newMessageEvent (sha256Hex : String → String) (msgID : Int) (msg : UpstreamMessage) :
    MessageEvent where
  eventID := sha256Hex (toString msgID ++ ":" ++ msg.topic ++ ":" ++ toString msg.senderID)
  msgID := msgID
  topic := msg.topic
  senderID := msg.senderID
  msgType := msg.msgType
  timestamp := msg.timestamp
  mentionedAgentIDs := msg.mentionedUserIDs

def AgentEventOutbox.new (now : Int) (ev : MessageEvent) : AgentEventOutbox where
  eventID := ev.eventID
  payload := ev
  status := .pending
  nextAttemptAt := some now
  createdAt := now

/-- Record an agent event. A duplicate key counts as recorded. -/
def enqueueAgentEvent (now : Int) (ev : MessageEvent) (fault : TxFault) (s : Store) :
    Except String Unit × OneReply × Store :=
  if ev.eventID.toList.all isSpace then (.error "agent event id is required", .failed, s)
  else
    let inserted := insertOne s.agentOutbox fault.outbox (.new now ev)
    let s' := { s with agentOutbox := inserted.1 }
    match inserted.2 with
    | .ok => (.ok (), .ok, s')
    | .duplicate => (.ok (), .duplicate, s')
    | .failed => (.error fault.text, .failed, s')

/-- The collections as before the transaction; the sender cache is not part of it. -/
def Store.rollback (s during : Store) : Store := { s with senderCache := during.senderCache }

/-- Run a save and the enqueueing of its event in one transaction, which any duplicate key
aborts. -/
def withAgentEvent {α : Type} (now : Int) (ev : MessageEvent) (fault : TxFault) (label : String)
    (isDuplicate : α → Bool) (save : Store → Except String α × Store) (s : Store) :
    Except String α × Store :=
  if fault.session then (.error ("start mongo transaction session: " ++ fault.text), s)
  else
    match save s with
    | (.error e, s₁) => (.error (label ++ e), s.rollback s₁)
    | (.ok a, s₁) =>
      if isDuplicate a then (.ok a, s.rollback s₁)
      else
        match enqueueAgentEvent now ev fault s₁ with
        | (.error e, _, s₂) => (.error (label ++ e), s.rollback s₂)
        | (.ok (), .duplicate, s₂) => (.error (label ++ fault.text), s.rollback s₂)
        | (.ok (), _, s₂) =>
          (if fault.commit.reported then .error (label ++ fault.text) else .ok a,
            if fault.commit.applied then s₂ else s.rollback s₂)

def saveP2PMessageWithAgentEvent (ev : MessageEvent) (fault : SaveFault) (tx : TxFault) :
    Store → Except String (List Int × Bool) × Store :=
  withAgentEvent now ev tx "persist p2p message and agent event: " Prod.snd
    (saveP2PMessage now msg msgID topicSeq fault)

def saveGroupMessageWithAgentEvent (ev : MessageEvent) (fault : SaveFault) (tx : TxFault) :
    Store → Except String Bool × Store :=
  withAgentEvent now ev tx "persist group message and agent event: " id
    (saveGroupMessage now msg msgID topicSeq fault)

end NonokaIM
