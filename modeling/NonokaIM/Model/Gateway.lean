import NonokaIM.Model.Authz
import NonokaIM.Model.Producer
import NonokaIM.Model.Pull
import NonokaIM.Model.Recall
import NonokaIM.Model.Receipts

/-! The gateway's packet handler, with what was written to Kafka, the packets that were sent, and
the receipts left to goroutines. -/

namespace NonokaIM

open DocumentStore List

inductive ConnState where
  | connected
  | authed
  | closed
  deriving DecidableEq

/-- The user id is 0 until the connection is authenticated. -/
structure Connection where
  connID : String
  userID : Int := 0
  deviceID : String := ""
  state : ConnState := .connected
  deriving DecidableEq

def Connection.setAuthed (c : Connection) (userID : Int) (deviceID : String) : Connection :=
  { c with userID, deviceID, state := .authed }

structure Manager where
  conns : List Connection := []
  registered : ∀ c ∈ conns, c.userID ≠ 0 := by decide

namespace Manager

def getAll (m : Manager) (userID : Int) : List Connection :=
  m.conns.filter fun c => c.userID = userID

def replacedBy (m : Manager) (c : Connection) : List Connection :=
  (m.getAll c.userID).filter fun old => old.deviceID = c.deviceID ∧ old.connID ≠ c.connID

def add (m : Manager) (c : Connection) : Manager :=
  if h : c.userID = 0 then m
  else
    { conns := (m.conns.filter fun old => old.connID ≠ c.connID) ++ [c]
      registered := by
        intro x hx
        rcases mem_append.mp hx with hx | hx
        · exact m.registered x (mem_of_mem_filter hx)
        · rw [mem_singleton.mp hx]
          exact h }

def remove (m : Manager) (c : Connection) : Manager where
  conns := m.conns.filter fun old => ¬ (old.userID = c.userID ∧ old.connID = c.connID)
  registered x hx := m.registered x (mem_of_mem_filter hx)

end Manager

/-! ## Packets -/

inductive Command where
  | unknown
  | heartbeat
  | auth
  | publish
  | ack
  | pull
  | notify
  | readReceipt
  | deliveryReceipt
  | sendReceipt
  | recallMessage
  | undefined (code : Int)
  deriving DecidableEq

structure AuthRequest where
  token : String
  deviceID : String := ""
  deriving DecidableEq

structure AuthResponse where
  success : Bool
  userID : Int
  deviceID : String
  deriving DecidableEq

structure SendMessageRequest where
  topic : String
  msgType : Int := 0
  content : List UInt8 := []
  clientMsgID : String
  mentionedUserIDs : List Int := []
  deriving DecidableEq

structure SendMessageReply where
  clientMsgID : String
  timestamp : Int
  deriving DecidableEq

structure AckRequest where
  msgID : Int := 0
  topic : String
  topicSeq : ℕ
  deriving DecidableEq

structure ReadReceipt where
  topic : String
  upToSeq : ℕ
  readerID : Int := 0
  deriving DecidableEq

structure DeliveryReceipt where
  topic : String
  topicSeq : ℕ
  msgID : Int
  deriving DecidableEq

structure RecallRequest where
  topic : String
  topicSeq : ℕ
  msgID : Int := 0
  deriving DecidableEq

structure RecallNotice where
  topic : String
  topicSeq : ℕ
  msgID : Int
  senderID : Int
  recalledAt : Int
  deriving DecidableEq

/-- The payloads that the handler reads or writes; `other` stands for pushes and send receipts,
which it does neither with. -/
inductive Payload where
  | authReq (req : AuthRequest)
  | authResp (resp : AuthResponse)
  | sendReq (req : SendMessageRequest)
  | sendReply (reply : SendMessageReply)
  | pullReq (req : PullRequest)
  | pullReply (reply : PullReply)
  | ackReq (req : AckRequest)
  | readReceipt (receipt : ReadReceipt)
  | deliveryReceipt (receipt : DeliveryReceipt)
  | recallReq (req : RecallRequest)
  | recallNotice (notice : RecallNotice)
  | error (err : ErrorResponse)
  | other
  deriving DecidableEq

structure Packet where
  cmd : Command
  seq : ℕ := 0
  payload : Option Payload := none
  deriving DecidableEq

namespace Packet

def getAuthReq (packet : Packet) : Option AuthRequest :=
  match packet.payload with
  | some (.authReq req) => some req
  | _ => none

def getSendReq (packet : Packet) : Option SendMessageRequest :=
  match packet.payload with
  | some (.sendReq req) => some req
  | _ => none

def getPullReq (packet : Packet) : Option PullRequest :=
  match packet.payload with
  | some (.pullReq req) => some req
  | _ => none

def getAckReq (packet : Packet) : Option AckRequest :=
  match packet.payload with
  | some (.ackReq req) => some req
  | _ => none

def getReadReceipt (packet : Packet) : Option ReadReceipt :=
  match packet.payload with
  | some (.readReceipt receipt) => some receipt
  | _ => none

def getRecallReq (packet : Packet) : Option RecallRequest :=
  match packet.payload with
  | some (.recallReq req) => some req
  | _ => none

end Packet

/-! ## The gateway -/

/-- The connections and the storage, the number of `Produce` calls so far, and the counter of the
Kafka writer. -/
structure Gateway where
  manager : Manager := {}
  storage : GatewayStorage := {}
  calls : ℕ := 0
  counter : ℕ := 0

/-- `time.Now().Unix()`; clock and durations are in nanoseconds. -/
def unixSeconds (now : Int) : Int := now / 10 ^ 9

structure Handler where
  authorizer : Option TopicAuthorizer
  groupMembers : Option (String → Except String (List Int)) := none
  recallWindow : Int := 2 * 60 * 10 ^ 9

inductive TokenCheck where
  | invalid
  | noClaims
  | noUserID
  | user (userID : Int)

/-- What happens while a packet is handled: rate limiter, token check, Kafka, clock, full
connections and storage faults. -/
structure PacketEnv (ν : Type) where
  allowed : Bool := true
  checkToken : String → TokenCheck := fun _ => .invalid
  produce : ProduceEnv ν
  now : Int := 0
  accepts : Connection → Packet → Bool := fun _ _ => true
  pullFault : PullFault := {}
  sender : SenderEnv := {}
  recallFault : RecallFault := {}
  deliveryFault : DeliveryFault := {}
  readFault : ReadFault := {}

structure Sent where
  conn : Connection
  packet : Packet
  deriving DecidableEq

inductive ReceiptJob where
  | pushDeliveryReceipt (topic : String) (topicSeq : ℕ) (msgID : Int)
  | pushReadReceipt (readerID : Int) (topic : String) (upToSeq : ℕ)
  deriving DecidableEq

structure Handled (ν : Type) where
  conn : Connection
  gateway : Gateway
  produced : List (Write ν) := []
  sent : List Sent := []
  jobs : List ReceiptJob := []

section

variable {ν : Type} (env : PacketEnv ν) (h : Handler) (g : Gateway) (c : Connection)

def send (c : Connection) (packet : Packet) : List Sent :=
  if env.accepts c packet then [⟨c, packet⟩] else []

def broadcastToUser (userID : Int) (packet : Packet) : List Sent :=
  (g.manager.getAll userID).flatMap fun c => send env c packet

def reply (packet : Packet) : Handled ν where
  conn := c
  gateway := g
  sent := send env c packet

def sendError (seq : ℕ) (cmd : Command) (err : ErrorResponse) : Handled ν :=
  reply env g c { cmd, seq, payload := some (.error err) }

variable (packet : Packet)

def handleHeartbeat : Handled ν :=
  reply env g c { cmd := .heartbeat, seq := packet.seq }

def handleAuth : Handled ν :=
  if c.state ≠ .connected then { conn := c, gateway := g }
  else
    match packet.getAuthReq with
    | none => sendError env g c packet.seq .auth ⟨4001, "invalid payload"⟩
    | some req =>
      if req.token = "" then sendError env g c packet.seq .auth ⟨4002, "token required"⟩
      else
        match env.checkToken req.token with
        | .invalid => sendError env g c packet.seq .auth ⟨4003, "invalid token"⟩
        | .noClaims => sendError env g c packet.seq .auth ⟨4004, "invalid claims"⟩
        | .noUserID => sendError env g c packet.seq .auth ⟨4005, "invalid user_id"⟩
        | .user userID =>
          let deviceID := if req.deviceID = "" then "default" else req.deviceID
          let c' := c.setAuthed userID deviceID
          -- closing an older connection removes it
          let manager := (g.manager.replacedBy c').foldl Manager.remove (g.manager.add c')
          reply env { g with manager } c'
            { cmd := .auth
              seq := packet.seq
              payload := some (.authResp ⟨true, userID, deviceID⟩) }

def authorizeTopic (userID : Int) (raw : String) : Except ErrorResponse String :=
  match normalizeTopic raw, h.authorizer with
  | .error _, _ => .error ⟨4009, "invalid topic"⟩
  | .ok _, none => .error ⟨4030, "topic authorization unavailable"⟩
  | .ok topic, some a =>
    match a.canAccessTopic userID topic with
    | .error _ => .error ⟨4030, "topic access denied"⟩
    | .ok () => .ok topic

def maxContentSize : ℕ := 64 * 1024

def checkPublish : Except ErrorResponse UpstreamMessage :=
  if !env.allowed then .error ⟨4029, "rate limit exceeded, slow down"⟩
  else if c.state ≠ .authed then .error ⟨4001, "authentication required"⟩
  else
    match packet.getSendReq with
    | none => .error ⟨4001, "invalid message format"⟩
    | some req =>
      if req.topic = "" then .error ⟨4006, "topic required"⟩
      else if req.clientMsgID = "" then .error ⟨4007, "client_msg_id required"⟩
      else if maxContentSize < req.content.length then .error ⟨4008, "message too large"⟩
      else
        match authorizeTopic h c.userID req.topic with
        | .error e => .error e
        | .ok topic => .ok
            { senderID := c.userID
              topic
              msgType := req.msgType
              content := req.content
              clientMsgID := req.clientMsgID
              timestamp := unixSeconds env.now
              mentionedUserIDs := req.mentionedUserIDs }

def handlePublish : Handled ν :=
  match checkPublish env h c packet with
  | .error e => sendError env g c packet.seq .publish e
  | .ok upstream =>
    let r := NonokaIM.produce env.produce g.calls upstream g.counter
    let g' := { g with calls := g.calls + 1, counter := r.2.2 }
    match r.1 with
    | .error _ =>
      { sendError env g' c packet.seq .publish ⟨5001, "message delivery failed"⟩ with
        produced := r.2.1 }
    | .ok () =>
      { reply env g' c
          { cmd := .publish
            seq := packet.seq
            payload := some (.sendReply ⟨upstream.clientMsgID, upstream.timestamp⟩) } with
        produced := r.2.1 }

def pullContext : PullContext where
  authed := c.state = .authed
  userID := c.userID
  canAccessTopic := h.authorizer.map fun a topic => (a.canAccessTopic c.userID topic).toBool
  fault := env.pullFault

def handlePullPacket : Handled ν :=
  match handlePull (pullContext env h c) g.storage.toStore packet.getPullReq with
  | .error e => sendError env g c packet.seq .pull e
  | .ok pulled =>
    reply env g c { cmd := .pull, seq := packet.seq, payload := some (.pullReply pulled) }

/-- An ack marks the message as delivered, under the topic that the client names, and leaves the
receipt for the sender to a goroutine. -/
def handleAck : Handled ν :=
  if c.state ≠ .authed then { conn := c, gateway := g }
  else
    match packet.getAckReq with
    | none => { conn := c, gateway := g }
    | some req =>
      -- an error of the update is only logged
      let updated :=
        updateDeliveryStatus env.now c.userID req.topic req.topicSeq env.deliveryFault g.storage
      { conn := c
        gateway := { g with storage := updated.2 }
        jobs := [.pushDeliveryReceipt req.topic req.topicSeq req.msgID] }

def handleReadReceipt : Handled ν :=
  if c.state ≠ .authed then { conn := c, gateway := g }
  else
    match packet.getReadReceipt with
    | none => { conn := c, gateway := g }
    | some req =>
      match updateReadStatus env.now c.userID req.topic req.upToSeq env.readFault g.storage with
      | (.error _, storage) => { conn := c, gateway := { g with storage } }
      | (.ok (), storage) =>
        { conn := c
          gateway := { g with storage }
          jobs := [.pushReadReceipt c.userID req.topic req.upToSeq] }

def checkRecall : Except ErrorResponse (String × RecallRequest) :=
  if c.state ≠ .authed then .error ⟨4001, "authentication required"⟩
  else
    match packet.getRecallReq with
    | none => .error ⟨4006, "topic and topic_seq required"⟩
    | some req =>
      if req.topic = "" ∨ req.topicSeq = 0 then .error ⟨4006, "topic and topic_seq required"⟩
      else
        match authorizeTopic h c.userID req.topic with
        | .error e => .error e
        | .ok topic => .ok (topic, req)

def recallAudience (userID : Int) (topic : String) : List Int :=
  match extractUserIDsFromP2PTopic topic with
  | .ok (uid1, uid2) => [if uid1 = userID then uid2 else uid1]
  | .error _ =>
    match h.groupMembers with
    | none => []
    | some groupMembers =>
      if hasPrefix topic "grp_" then
        match groupMembers (String.ofList (topic.toList.drop 4)) with
        | .ok members => members
        | .error _ => []
      else []

/-- The faults of a recall, where the seq may fail to encode. -/
def recallFaultFor (topicSeq : ℕ) (fault : RecallFault) : RecallFault where
  messages := updateFaultFor topicSeq fault.messages
  inboxes := updateFaultFor topicSeq fault.inboxes
  mentionInboxes := updateFaultFor topicSeq fault.mentionInboxes

def recallFailure : RecallError → ErrorResponse
  | .notFound => ⟨4101, "message is outside the recall window or already recalled"⟩
  | .update _ => ⟨5003, "failed to recall message"⟩

def recallChecked (seq : ℕ) (topic : String) (req : RecallRequest) : Handled ν :=
  let found := getMessageSender env.sender topic req.topicSeq g.storage
  let g₁ := { g with storage := found.2 }
  if found.1.toOption ≠ some c.userID then
    sendError env g₁ c seq .recallMessage ⟨4030, "only the sender can recall this message"⟩
  else
    let args : RecallArgs := ⟨topic, req.topicSeq, req.msgID, c.userID, h.recallWindow⟩
    let recalled :=
      recallMessage args env.now (recallFaultFor req.topicSeq env.recallFault) g₁.storage.toStore
    let g₂ := { g₁ with storage := { g₁.storage with toStore := recalled.2 } }
    match recalled.1 with
    | .error e => sendError env g₂ c seq .recallMessage (recallFailure e)
    | .ok () =>
      let notice : Packet :=
        { cmd := .recallMessage
          payload := some (.recallNotice
            ⟨topic, req.topicSeq, req.msgID, c.userID, unixSeconds env.now⟩) }
      { conn := c
        gateway := g₂
        sent := (c.userID :: recallAudience h c.userID topic).flatMap
            (fun userID => broadcastToUser env g₂ userID notice) ++
          send env c { cmd := .recallMessage, seq } }

def handleRecall : Handled ν :=
  match checkRecall h c packet with
  | .error e => sendError env g c packet.seq .recallMessage e
  | .ok (topic, req) => recallChecked env h g c packet.seq topic req

def handlePacket : Handled ν :=
  match packet.cmd with
  | .heartbeat => handleHeartbeat env g c packet
  | .auth => handleAuth env g c packet
  | .publish => handlePublish env h g c packet
  | .pull => handlePullPacket env h g c packet
  | .ack => handleAck env g c packet
  | .readReceipt => handleReadReceipt env g c packet
  | .recallMessage => handleRecall env h g c packet
  | _ => { conn := c, gateway := g }

/-- A goroutine, on the gateway it finds: the gateway afterwards, and the packets it sent. -/
def runReceipt : ReceiptJob → Gateway × List Sent
  | .pushDeliveryReceipt topic topicSeq msgID =>
    match getMessageSender env.sender topic topicSeq g.storage with
    | (.error _, storage) => ({ g with storage }, [])
    | (.ok senderID, storage) =>
      ({ g with storage }, broadcastToUser env g senderID
        { cmd := .deliveryReceipt, payload := some (.deliveryReceipt ⟨topic, topicSeq, msgID⟩) })
  | .pushReadReceipt readerID topic upToSeq =>
    match parseTopicType topic with
    | .p2p =>
      match extractUserIDsFromP2PTopic topic with
      | .error _ => (g, [])
      | .ok (uid1, uid2) =>
        (g, broadcastToUser env g (if readerID = uid1 then uid2 else uid1)
          { cmd := .readReceipt, payload := some (.readReceipt ⟨topic, upToSeq, readerID⟩) })
    -- group and system topics have no read receipts
    | .group | .system | .unknown => (g, [])

end

end NonokaIM
