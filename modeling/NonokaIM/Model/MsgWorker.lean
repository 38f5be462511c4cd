import NonokaIM.Model.Storage
import NonokaIM.Model.SeqGenerator

/-! One call of the handler of upstream messages: numbering, saving by topic type, and what
follows. -/

namespace NonokaIM

open DocumentStore

/-- What a worker is configured with. `members` is the group service and its answers, and
`sha256Hex` the digest behind the ids of agent events. -/
structure WorkerConfig where
  agentPublisher : Bool := false
  groupBatcher : Bool := true
  conversationRepo : Bool := true
  members : Option (String → List Int) := some fun _ => []
  sha256Hex : String → String := id

structure ConversationUpsert where
  userID : Int
  topic : String
  topicSeq : ℕ

structure DeliveryTask where
  upstream : UpstreamMessage
  msgID : Int
  topicSeq : ℕ
  recipientIDs : List Int
  isGroup : Bool
  deriving DecidableEq

/-- What handlers act on: the collections, the conversation summaries and the push pool, of
which all tasks ever submitted are kept. -/
structure World where
  store : Store := {}
  conversations : List ConversationUpsert := []
  pushPool : List DeliveryTask := []

def isGroup (msg : UpstreamMessage) : Bool := parseTopicType msg.topic = .group

/-- Group messages go through the batcher where there is one and no agent event is needed. -/
def batched (cfg : WorkerConfig) (msg : UpstreamMessage) : Bool :=
  isGroup msg && cfg.groupBatcher && !cfg.agentPublisher

variable (cfg : WorkerConfig) (now : Int) (msg : UpstreamMessage) (msgID : Int) (topicSeq : ℕ)

/-- The save of a message that is not batched. The result holds the recipients and whether the
message counts as a duplicate. -/
def save (fault : SaveFault) (tx : TxFault) (s : Store) : Except String (List Int × Bool) × Store :=
  let agentEvent := newMessageEvent cfg.sha256Hex msgID msg
  match parseTopicType msg.topic with
  | .p2p =>
    let r := if cfg.agentPublisher then
        saveP2PMessageWithAgentEvent now msg msgID topicSeq agentEvent fault tx s
      else saveP2PMessage now msg msgID topicSeq fault s
    (wrapErr "save p2p message: " r.1, r.2)
  | .group =>
    let r := if cfg.agentPublisher then
        saveGroupMessageWithAgentEvent now msg msgID topicSeq agentEvent fault tx s
      else saveGroupMessage now msg msgID topicSeq fault s
    (wrapErr "save group message: " (r.1.map fun isDuplicate => ([], isDuplicate)), r.2)
  | .system =>
    let r := saveSystemMessage now msg msgID topicSeq fault s
    (wrapErr "save system message: " r.1, r.2)
  | .unknown => (.error ("unknown topic type: " ++ msg.topic), s)

/-! ## After a save -/

structure CompleteFault where
  mention : SaveFault := .none
  backup : CallFault := .none
  members : Bool := false
  upsert : ℕ → CallFault := fun _ => .none

def upsertUsers (recipientIDs : List Int) (membersFail : Bool) : List Int :=
  if !cfg.conversationRepo then []
  else if isGroup msg then
    match extractGroupID msg.topic, cfg.members with
    | .ok groupID, some members => if membersFail then [] else members groupID
    | _, _ => []
  else msg.senderID :: recipientIDs.filter (· ≠ msg.senderID)

def upsertEach (msg : UpstreamMessage) (topicSeq : ℕ) :
    (ℕ → CallFault) → List Int → List ConversationUpsert
  | _, [] => []
  | fault, uid :: uids =>
    (if (fault 0).applied then [⟨uid, msg.topic, topicSeq⟩] else []) ++
      upsertEach msg topicSeq (fun i => fault (i + 1)) uids

def upsertConversations (recipientIDs : List Int) (fault : CompleteFault) (w : World) : World :=
  { w with conversations := w.conversations ++
      upsertEach msg topicSeq fault.upsert (upsertUsers cfg msg recipientIDs fault.members) }

/-- The mention rows of a group message, also for a duplicate; an error is only logged. -/
def saveMentions (fault : SaveFault) (s : Store) : Store :=
  if isGroup msg ∧ msg.mentionedUserIDs ≠ [] then
    (saveMentionInbox now msg msgID topicSeq msg.mentionedUserIDs fault s).2
  else s

/-- The ways the submission to the push pool ends. A worker that stops drops the task or, once
the channel is closed, panics. -/
inductive PoolSelect where
  | queued
  | stopped
  | closed

/-- The part of the handler after the save: mentions, and for a fresh message the backup of its
seq, the conversation summaries and the delivery. -/
def complete (recipientIDs : List Int) (isDuplicate : Bool) (fault : CompleteFault)
    (pool : PoolSelect) (w : World) : Except String Unit × World :=
  let w := { w with store := saveMentions now msg msgID topicSeq fault.mention w.store }
  if isDuplicate then (.ok (), w)
  else
    let w := { w with store := (backupTopicSeq msg.topic topicSeq fault.backup w.store).2 }
    let w := upsertConversations cfg msg topicSeq recipientIDs fault w
    match pool with
    | .queued =>
      (.ok (), { w with pushPool :=
        w.pushPool ++ [⟨msg, msgID, topicSeq, recipientIDs, isGroup msg⟩] })
    | .stopped => (.ok (), w)
    | .closed => (.error "panic recovered: send on closed channel", w)

/-! ## One call -/

/-- The faults of a whole handler call. `timedOut` ends the wait for a batch. -/
structure HandleFault where
  seq : CallFault := .none
  save : SaveFault := .none
  tx : TxFault := .none
  flush : FlushFault := {}
  timedOut : Bool := false
  complete : CompleteFault := {}
  pool : PoolSelect := .queued

structure Peers where
  before : List GroupBatchItem := []
  after : List GroupBatchItem := []

def Peers.items (peers : Peers) (item : GroupBatchItem) : List GroupBatchItem :=
  peers.before ++ item :: peers.after

def addToBatch (now : Int) (item : GroupBatchItem) (peers : Peers) (fault : FlushFault)
    (timedOut : Bool) (s : Store) : Except String (List Int × Bool) × Store :=
  let r := flush now (peers.items item) fault s
  if timedOut then (.error "save group message: context deadline exceeded", r.2)
  else
    match r.1[peers.before.length]? with
    | some res =>
      (wrapErr "save group message: " (res.map fun isDuplicate => ([], isDuplicate)), r.2)
    | none => (.error "save group message: context deadline exceeded", r.2)

def persist (peers : Peers) (fault : HandleFault) (s : Store) :
    Except String (List Int × Bool) × Store :=
  if batched cfg msg then addToBatch now ⟨msg, msgID, topicSeq⟩ peers fault.flush fault.timedOut s
  else save cfg now msg msgID topicSeq fault.save fault.tx s

/-- `HandleMessage` on a decoded message, with the id that `NextID` returns. -/
def handleMessage (peers : Peers) (fault : HandleFault) (g : SeqGenerator) (counter : ℕ)
    (w : World) : Except String Unit × World × SeqGenerator × ℕ :=
  match g.nextSeq msg.topic counter fault.seq with
  | (.error e, g', counter') => (.error ("generate topic seq: " ++ e), w, g', counter')
  | (.ok topicSeq, g', counter') =>
    match persist cfg now msg msgID topicSeq peers fault w.store with
    | (.error e, s) => (.error e, { w with store := s }, g', counter')
    | (.ok (recipientIDs, isDuplicate), s) =>
      let r := complete cfg now msg msgID topicSeq recipientIDs isDuplicate fault.complete
        fault.pool { w with store := s }
      (r.1, r.2, g', counter')

end NonokaIM
