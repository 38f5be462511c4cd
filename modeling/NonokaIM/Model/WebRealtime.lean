import Mathlib.Algebra.Group.Nat.Defs
import NonokaIM.Model.Topic

/-! How the web client connects and reconnects. -/

namespace NonokaIM.Web

/-- Where the client runs: the base URL of the API, and the URLs that the constructor of
`WebSocket` accepts. -/
structure Env where
  apiBaseUrl : String := "http://127.0.0.1:8000"
  accepts : String → Bool

/-- `base.replace(/^http/, "ws") + "/ws"`. -/
def Env.inferGatewayUrl (env : Env) : String :=
  let base := env.apiBaseUrl
  (if hasPrefix base "http" then "ws" ++ String.ofList (base.toList.drop 4) else base) ++ "/ws"

/-- `gatewayUrl || this.inferGatewayUrl()`. -/
def Env.url (env : Env) (gatewayUrl : String) : String :=
  if gatewayUrl = "" then env.inferGatewayUrl else gatewayUrl

/-- A socket is `failing` from its error event to its close event. -/
inductive ReadyState where
  | connecting
  | open
  | failing
  | closed
  deriving DecidableEq

inductive AuthState where
  | none
  | waiting
  | done
  | failed
  deriving DecidableEq

/-- `listening` tells whether the listeners of `doConnect` are attached. -/
structure WebSocket where
  readyState : ReadyState := .connecting
  listening : Bool := true
  auth : AuthState := .none
  deriving DecidableEq

/-- The client, and the promises it waits for: a gateway lookup and a token refresh. Heartbeats
and other requests are left out. -/
structure RealtimeClient where
  ws : Option WebSocket := none
  reconnectTimer : Option ℕ := none
  reconnectAttempt : ℕ := 0
  closed : Bool := false
  didTokenRefresh : Bool := false
  lookup : Bool := false
  refreshing : Bool := false

def maxReconnectDelayMs : ℕ := 30000

def mentions (msg text : String) : Bool :=
  (msg.toList.map Char.toLower).tails.any (text.toList.isPrefixOf ·)

def isTokenError (msg : String) : Bool :=
  ["invalid token", "auth failed", "unauthorized", "401"].any (mentions msg)

namespace RealtimeClient

variable (c : RealtimeClient)

def doConnect : RealtimeClient := if c.closed then c else { c with lookup := true }

def connect : RealtimeClient := ({} : RealtimeClient).doConnect

def scheduleReconnect : RealtimeClient :=
  if c.closed || c.reconnectTimer.isSome then c
  else
    { c with
      reconnectTimer := some (min (1000 * 2 ^ c.reconnectAttempt) maxReconnectDelayMs)
      reconnectAttempt := c.reconnectAttempt + 1 }

/-- The promise of an authentication that was still awaited is rejected; the error is none of a
token. -/
def handleDisconnect : RealtimeClient := { c with ws := none }.scheduleReconnect

def lookupFailed : RealtimeClient := { c with lookup := false }.scheduleReconnect

/-- The returned promise is not awaited, so a constructor that throws does not get to the handler
that schedules a reconnect. -/
def lookupFound (env : Env) (gatewayUrl : String) : RealtimeClient :=
  if env.accepts (env.url gatewayUrl) then { c with lookup := false, ws := some {} }
  else { c with lookup := false }

def authFailed (k : WebSocket) (msg : String) : RealtimeClient :=
  if !c.didTokenRefresh && isTokenError msg then
    { c with didTokenRefresh := true, ws := none, refreshing := true }
  else { c with ws := some { k with auth := .failed } }

/-- The session is over if the refresh token is not accepted either. -/
def refreshDone (ok : Bool) : RealtimeClient :=
  if ok then { c with refreshing := false }.doConnect
  else { c with refreshing := false, closed := true }

end RealtimeClient

/-- A lookup or a refresh returns, the socket or the server does something, or a timer fires. -/
inductive ClientEvent where
  | lookupFailed
  | lookupFound (gatewayUrl : String)
  | opened
  | error
  | closed
  | authReply (success : Bool)
  | authError (msg : String) (code : ℕ)
  | authTimeout
  | refreshed (ok : Bool)
  | reconnect

def errorText (msg : String) (code : ℕ) : String :=
  if msg = "" then "error " ++ toString code else msg

namespace RealtimeClient

variable (c : RealtimeClient)

def onOpen (k : WebSocket) : RealtimeClient :=
  if k.readyState = .connecting then
    { c with
      ws := some { k with readyState := .open, auth := if k.listening then .waiting else k.auth } }
  else c

/-- The listeners are removed, also the one for the close event that follows. -/
def onError (k : WebSocket) : RealtimeClient :=
  if k.readyState = .connecting ∨ k.readyState = .open then
    { c with ws := some { k with readyState := .failing, listening := false } }
  else c

def onClose (k : WebSocket) : RealtimeClient :=
  if k.readyState = .closed then c
  else if k.listening then c.handleDisconnect
  else { c with ws := some { k with readyState := .closed } }

/-- A packet is read while the listener is attached. -/
def authSettled (k : WebSocket) (result : Option String) : RealtimeClient :=
  if k.readyState = .open ∧ k.listening ∧ k.auth = .waiting then
    match result with
    | none => { c with ws := some { k with auth := .done }, reconnectAttempt := 0 }
    | some msg => c.authFailed k msg
  else c

def onSocket (k : WebSocket) : ClientEvent → RealtimeClient
  | .opened => c.onOpen k
  | .error => c.onError k
  | .closed => c.onClose k
  | .authReply success => c.authSettled k (if success then none else some "auth failed")
  | .authError msg code => c.authSettled k (some (errorText msg code))
  | .authTimeout => if k.auth = .waiting then c.authFailed k "auth timeout" else c
  | _ => c

def step (env : Env) : ClientEvent → RealtimeClient
  | .lookupFailed => if c.lookup then c.lookupFailed else c
  | .lookupFound gatewayUrl => if c.lookup then c.lookupFound env gatewayUrl else c
  | .refreshed ok => if c.refreshing then c.refreshDone ok else c
  | .reconnect =>
    if c.reconnectTimer.isSome then { c with reconnectTimer := none }.doConnect else c
  | e =>
    match c.ws with
    | none => c
    | some k => c.onSocket k e

end RealtimeClient

end NonokaIM.Web
