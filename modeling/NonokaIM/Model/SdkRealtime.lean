import NonokaIM.Model.Delivery
import NonokaIM.Model.SdkConversation

/-! The SDK's realtime client: pushed messages, and the goroutines around a socket. -/

namespace NonokaIM.Sdk

/-! ## Pushed messages

The read loop handles packets one after the other. -/

def toSDKMessage (push : MessagePush) : Message where
  msgID := push.msgID
  topic := push.topic
  senderID := push.senderID
  msgType := push.msgType
  content := push.content
  timestamp := push.timestamp
  topicSeq := push.topicSeq
  status := .delivered
  clientMsgID := push.clientMsgID

structure Ack where
  msgID : Int
  topic : String
  topicSeq : ℕ

/-- The last seen seq of each topic, the acknowledgements sent, and the calls of the user's
handler. -/
structure PushState where
  seenSeqs : String → Option ℕ := fun _ => none
  acks : List Ack := []
  invoked : List Message := []

/-- A notification: its payload, if it is a message, and whether the client acknowledges messages
and is authenticated when it handles it. -/
structure Notification where
  notify : Option MessagePush
  acknowledges : Bool := false

def PushState.handlePush (rt : PushState) (n : Notification) : PushState :=
  match n.notify with
  | none => rt
  | some notify =>
    if (rt.seenSeqs notify.topic).any (notify.topicSeq ≤ ·) then rt
    else
      { seenSeqs := Function.update rt.seenSeqs notify.topic (some notify.topicSeq)
        acks :=
          if n.acknowledges then rt.acks ++ [⟨notify.msgID, notify.topic, notify.topicSeq⟩]
          else rt.acks
        invoked := rt.invoked ++ [toSDKMessage notify] }

def handlePushes (ns : List Notification) : PushState := ns.foldl PushState.handlePush {}

/-! ## The goroutines around a socket

Every access of `readLoop` and `reconnectMonitor` to `wsConn` and the state is a step. Sockets are
numbered as they are dialled; only the monitor dials once `Connect` has returned. -/

inductive RtState where
  | disconnected
  | connecting
  | connected
  | authed
  | reconnecting
  deriving DecidableEq

def RtState.value : RtState → ℕ
  | .disconnected => 0
  | .connecting => 1
  | .connected => 2
  | .authed => 3
  | .reconnecting => 4

inductive Frame where
  | authReply (success : Bool)
  | other
  deriving DecidableEq

def Frame.isAuthReply : Frame → Bool
  | .authReply _ => true
  | .other => false

/-- `asked` and `replied` tell of the request for authentication, `deadline` that reads may time
out. `authed` is not in the source: `authenticate` has succeeded on the socket. -/
structure Socket where
  incoming : List Frame := []
  asked : Bool := false
  replied : Bool := false
  deadline : Bool := false
  down : Bool := false
  authed : Bool := false

/-- A read that fails meets a socket that is down, or a deadline. -/
def Socket.canFail (k : Socket) : Bool := k.down || k.deadline

inductive ReaderPhase where
  | top
  | load
  | reading (k : ℕ)
  | failed (k : ℕ)
  | storing (k : ℕ)
  | sleeping
  | panicked
  deriving DecidableEq

/-- The next access of `reconnectMonitor`, from `enter` on in `connectAndAuth` with the gateways
left to try. -/
inductive MonitorPhase where
  | top
  | swap
  | enter
  | begin (start target : RtState)
  | refused (target : RtState)
  | closing (target : RtState)
  | closed (target : RtState)
  | again (target : RtState)
  | dial (left : ℕ)
  | dialled (k left : ℕ)
  | connected (k left : ℕ)
  | send (k left : ℕ)
  | read (k left : ℕ)
  | accepted (k : ℕ)
  | rejected (k left : ℕ)
  | cleared (left : ℕ)
  | exhausted
  | stopped
  deriving DecidableEq

structure RealtimeOptions where
  gateways : ℕ := 1
  maxReconnectAttempts : ℕ := 0

/-- `stolen` and `lateDrop` are not in the source: the read loop has read a reply to a request for
authentication, or set the state after an error of a socket older than an authenticated one. -/
structure RealtimeState where
  state : RtState := .authed
  wsConn : Option ℕ := some 0
  dialled : ℕ := 1
  sockets : ℕ → Socket := fun _ => {}
  reader : ReaderPhase := .top
  monitor : MonitorPhase := .top
  reconnectAttempts : ℕ := 0
  stolen : Bool := false
  lateDrop : Bool := false

namespace RealtimeState

variable (opts : RealtimeOptions) (s : RealtimeState)

/-- `Connect` has returned: the first socket is authenticated, and the goroutines start. -/
def init : RealtimeState where
  sockets := Function.update (fun _ => {}) 0 { asked := true, replied := true, authed := true }

def setSocket (k : ℕ) (socket : Socket) : RealtimeState :=
  { s with sockets := Function.update s.sockets k socket }

@[simp] theorem sockets_setSocket_self (k : ℕ) (socket : Socket) :
    (s.setSocket k socket).sockets k = socket := by
  simp [setSocket]

theorem sockets_setSocket_of_ne {k n : ℕ} (socket : Socket) (hn : n ≠ k) :
    (s.setSocket k socket).sockets n = s.sockets n := by
  simp [setSocket, hn]

/-- A socket that was dialled after the `k`-th one is authenticated. -/
def newerAuthed (k : ℕ) : Bool :=
  (List.range s.dialled).any fun n => k < n && (s.sockets n).authed

def readerStep (fails : Bool) : RealtimeState :=
  match s.reader with
  | .top => if s.wsConn = none then s else { s with reader := .load }
  | .load =>
    -- the field is read once more after the check
    match s.wsConn with
    | none => { s with reader := .panicked }
    | some k => { s with reader := .reading k }
  | .reading k =>
    if fails && (s.sockets k).canFail then { s with reader := .failed k }
    else
      match (s.sockets k).incoming with
      | [] => s
      | f :: rest =>
        { s.setSocket k { s.sockets k with incoming := rest } with
          reader := .top
          stolen := s.stolen || f.isAuthReply }
  | .failed k =>
    if RtState.connected.value ≤ s.state.value then { s with reader := .storing k }
    else { s with reader := .sleeping }
  | .storing k =>
    { s with
      state := .disconnected
      reader := .sleeping
      lateDrop := s.lateDrop || s.newerAuthed k }
  | .sleeping => { s with reader := .top }
  | .panicked => s

/-- `CompareAndSwap`: go on with `ok`, or with `no` if the state is another one. -/
def compareAndSwap (old new : RtState) (ok no : MonitorPhase) : RealtimeState :=
  if s.state = old then { s with state := new, monitor := ok } else { s with monitor := no }

def monitorStep (fails : Bool) : RealtimeState :=
  match s.monitor with
  | .top =>
    if s.state = .authed then s
    else if 0 < opts.maxReconnectAttempts ∧ opts.maxReconnectAttempts ≤ s.reconnectAttempts then
      { s with monitor := .stopped }
    else { s with monitor := .swap }
  | .swap =>
    if s.state = .disconnected then
      { s with
        state := .reconnecting
        monitor := .enter
        reconnectAttempts := s.reconnectAttempts + 1 }
    else { s with monitor := .top }
  | .enter =>
    let target :=
      if s.state = .authed ∨ s.state = .reconnecting then .reconnecting else .connecting
    let start := if s.state = .reconnecting then .reconnecting else .disconnected
    { s with monitor := .begin start target }
  | .begin start target =>
    s.compareAndSwap start target (.dial (max opts.gateways 1)) (.refused target)
  | .refused target =>
    if s.state = .connecting ∨ s.state = .reconnecting then { s with monitor := .top }
    else { s with monitor := .closing target }
  | .closing target =>
    match s.wsConn with
    | none => { s with monitor := .closed target }
    | some k =>
      { s.setSocket k { s.sockets k with down := true } with monitor := .closed target }
  | .closed target => { s with state := .disconnected, monitor := .again target }
  | .again target =>
    s.compareAndSwap .disconnected target (.dial (max opts.gateways 1)) .top
  | .dial 0 => { s with monitor := .exhausted }
  | .dial (left + 1) =>
    if fails then { s with monitor := .dial left }
    else
      { s.setSocket s.dialled {} with
        dialled := s.dialled + 1
        monitor := .dialled s.dialled left }
  | .dialled k left => { s with wsConn := some k, monitor := .connected k left }
  | .connected k left => { s with state := .connected, monitor := .send k left }
  | .send k left =>
    if fails then { s with monitor := .rejected k left }
    else
      { s.setSocket k { s.sockets k with asked := true, deadline := true } with
        monitor := .read k left }
  | .read k left =>
    if fails && (s.sockets k).canFail then { s with monitor := .rejected k left }
    else
      match (s.sockets k).incoming with
      | [] => s
      | f :: rest =>
        let s' := s.setSocket k { s.sockets k with incoming := rest }
        match f with
        | .other => s'
        | .authReply false => { s' with monitor := .rejected k left }
        | .authReply true => { s' with monitor := .accepted k }
  | .accepted k =>
    { s.setSocket k { s.sockets k with deadline := false, authed := true } with
      state := .authed
      monitor := .top
      reconnectAttempts := 0 }
  | .rejected k left =>
    { s.setSocket k { s.sockets k with down := true } with
      wsConn := none
      monitor := .cleared left }
  | .cleared left => { s with state := .disconnected, monitor := .dial left }
  | .exhausted => { s with state := .disconnected, monitor := .top }
  | .stopped => s

end RealtimeState

/-- A turn of a goroutine, a frame of the server, the end of a connection, or a
`closeConnection`. -/
inductive RealtimeOp where
  | reader (fails : Bool)
  | monitor (fails : Bool)
  | reply (k : ℕ) (success : Bool)
  | frame (k : ℕ)
  | drop (k : ℕ)
  | disconnect

def realtimeStep (opts : RealtimeOptions) (s : RealtimeState) : RealtimeOp → RealtimeState
  | .reader fails => s.readerStep fails
  | .monitor fails => s.monitorStep opts fails
  | .reply k success =>
    if (s.sockets k).asked && !(s.sockets k).replied && !(s.sockets k).down then
      s.setSocket k
        { s.sockets k with
          incoming := (s.sockets k).incoming ++ [.authReply success]
          replied := true }
    else s
  | .frame k =>
    if (s.sockets k).down then s
    else s.setSocket k { s.sockets k with incoming := (s.sockets k).incoming ++ [.other] }
  | .drop k => s.setSocket k { s.sockets k with down := true }
  | .disconnect =>
    match s.wsConn with
    | none => { s with state := .disconnected }
    | some k =>
      { s.setSocket k { s.sockets k with down := true } with state := .disconnected }

end NonokaIM.Sdk
