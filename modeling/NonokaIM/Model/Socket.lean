import NonokaIM.Model.Gateway
import NonokaIM.Model.Session

/-! The sockets of one device at one gateway node, step by step.

`handleAuth` changes the connection, the manager and the session index one after another, and
`Close` cleans up once. It is called by the read loop, by the idle checker for a registered
connection, and by the `handleAuth` of a newer socket. Calls to Redis do not fail. -/

namespace NonokaIM

/-- A device of a user at a gateway node. User ids are not 0. -/
structure GatewayDevice where
  nodeID : String
  userID : Int
  deviceID : String
  user : userID ≠ 0

/-- `handleAuth` before `SetAuthed`, and after each of its steps. -/
inductive AuthPhase where
  | waiting
  | authed
  | added (replaced : List Connection)
  | closing (replaced : List Connection)
  | done
  deriving DecidableEq

/-- How far `Close` has come: not called, called, after `Remove`, and after `DelSession`. -/
inductive ClosePhase where
  | alive
  | called
  | removed
  | closed
  deriving DecidableEq

/-- `lateSet` is not in the source: the session was set after the socket's own cleanup. -/
structure Socket where
  conn : Connection
  auth : AuthPhase := .waiting
  close : ClosePhase := .alive
  lateSet : Bool := false

/-- The last two fields are not in the source: which socket was added last, and which one set its
session last. -/
structure SocketState where
  manager : Manager := {}
  sessions : Sessions
  sockets : AList (fun _ : String => Socket) := ∅
  lastAdd : Option String := none
  lastSet : Option String := none

namespace SocketState

variable (s : SocketState)

def socket (connID : String) : Socket :=
  (s.sockets.lookup connID).getD { conn := { connID } }

def setSocket (connID : String) (x : Socket) : SocketState :=
  { s with sockets := s.sockets.insert connID x }

def callClose (connID : String) : SocketState :=
  let x := s.socket connID
  if x.close = .alive then
    s.setSocket connID
      { x with
        conn := { x.conn with state := .closed }
        close := .called }
  else s

/-- The next step of `handleAuth`. Closing a replaced connection waits until its cleanup is over,
also when another goroutine runs it. -/
def stepAuth (g : GatewayDevice) (connID : String) : SocketState :=
  let x := s.socket connID
  match x.auth with
  | .waiting =>
    if x.conn.state = .connected then
      s.setSocket connID
        { x with
          conn := x.conn.setAuthed g.userID g.deviceID
          auth := .authed }
    else s
  | .authed =>
    { s.setSocket connID { x with auth := .added (s.manager.replacedBy x.conn) } with
      manager := s.manager.add x.conn
      lastAdd := some connID }
  | .added replaced =>
    { s.setSocket connID
        { x with
          auth := .closing replaced
          lateSet := decide (x.close = .closed) } with
      sessions := (SessionManager.setSession ⟨g.nodeID⟩ x.conn.userID x.conn.deviceID
        x.conn.connID s.sessions).1
      lastSet := some connID }
  | .closing [] => s.setSocket connID { x with auth := .done }
  | .closing (old :: replaced) =>
    if (s.socket old.connID).close = .closed then
      s.setSocket connID { x with auth := .closing replaced }
    else s.callClose old.connID
  | .done => s

def stepClose (g : GatewayDevice) (connID : String) : SocketState :=
  let x := s.socket connID
  match x.close with
  | .called =>
    if x.conn.userID = 0 then s.setSocket connID { x with close := .closed }
    else
      { s.setSocket connID { x with close := .removed } with
        manager := s.manager.remove x.conn }
  | .removed =>
    { s.setSocket connID { x with close := .closed } with
      sessions := (SessionManager.delSession ⟨g.nodeID⟩ x.conn.userID x.conn.deviceID
        x.conn.connID s.sessions).1 }
  | .alive => s
  | .closed => s

end SocketState

inductive SocketOp where
  | auth (connID : String)
  | close (connID : String)
  | cleanup (connID : String)
  | heartbeat (connID : String)

/-- Between `SetAuthed` and `Add` nobody calls `Close`: the read loop is in the handler, and the
manager does not know the connection. -/
def socketStep (g : GatewayDevice) (s : SocketState) : SocketOp → SocketState
  | .auth connID => s.stepAuth g connID
  | .close connID => if (s.socket connID).auth = .authed then s else s.callClose connID
  | .cleanup connID => s.stepClose g connID
  | .heartbeat _ => s

end NonokaIM
