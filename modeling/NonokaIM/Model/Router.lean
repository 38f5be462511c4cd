import NonokaIM.Model.Pusher
import NonokaIM.Model.Session

/-! The router's cache of the nodes that serve a user.

A resolve looks its users up, reads the devices of the others in one pipeline, and stores what it
has read; anything may come in between. The numbers of changes are not in the source; they say how
old a read is. -/

namespace NonokaIM

open Function

structure SessionCacheEntry where
  nodeIDs : List String
  expires : ℕ
  /-- How many changes of the user the read had seen. -/
  seen : ℕ
  deriving DecidableEq

abbrev SessionCache := Int → Option SessionCacheEntry

structure DeviceRead where
  userID : Int
  devices : AList (fun _ : String => String)
  seen : ℕ

inductive ResolvePhase where
  | looking (userIDs missing : List Int)
  | reading (missing : List Int) (cmds : List DeviceRead)
  | storing (cmds : List DeviceRead)
  | returned
  | failed (err : String)

structure ResolveCall where
  aliveNodes : List GatewayNodeInfo := []
  result : String → List Int := fun _ => []
  phase : ResolvePhase := .returned

structure RouterState where
  sessionCacheTTL : ℕ := 5
  now : ℕ := 0
  sessions : Sessions
  changes : Int → ℕ := fun _ => 0
  /-- Events that are published and not received, each with the number of its change. -/
  pending : List (SessionChangeEvent × ℕ) := []
  processed : List (Int × ℕ) := []
  sessionCache : SessionCache := fun _ => none
  calls : ℕ → ResolveCall := fun _ => {}

def invalidateSessionCache (userID : Int) (cache : SessionCache) : SessionCache :=
  update cache userID none

def validEntry (now : ℕ) (userID : Int) (cache : SessionCache) : Option SessionCacheEntry :=
  (cache userID).filter fun entry => !decide (entry.expires < now)

/-- An entry that has expired is removed on the way. -/
def getCachedSession (now : ℕ) (userID : Int) (cache : SessionCache) :
    Option SessionCacheEntry × SessionCache :=
  (validEntry now userID cache,
    if (validEntry now userID cache).isSome then cache else invalidateSessionCache userID cache)

def setCachedSession (expires : ℕ) (userID : Int) (nodeIDs : List String) (seen : ℕ)
    (cache : SessionCache) : SessionCache :=
  update cache userID (some { nodeIDs, expires, seen })

def isAlive (aliveNodes : List GatewayNodeInfo) (nodeID : String) : Bool :=
  (aliveNodes.map GatewayNodeInfo.nodeID).contains nodeID

/-- The entry that answers for a user: one with a live node. -/
def cacheHit (now : ℕ) (aliveNodes : List GatewayNodeInfo) (userID : Int) (cache : SessionCache) :
    Option SessionCacheEntry :=
  (validEntry now userID cache).filter fun entry => entry.nodeIDs.any (isAlive aliveNodes)

def addToNodes (userID : Int) (nodeIDs : List String) (result : String → List Int) :
    String → List Int :=
  nodeIDs.foldl (fun result nodeID => update result nodeID (result nodeID ++ [userID])) result

/-- The live nodes of the devices, each once. No devices and no live node both give the empty
list. -/
def liveNodeIDs (aliveNodes : List GatewayNodeInfo) (devices : AList (fun _ : String => String)) :
    List String :=
  ((devices.entries.map fun entry => sessionNodeID entry.2).filter (isAlive aliveNodes)).dedup

theorem mem_liveNodeIDs {aliveNodes : List GatewayNodeInfo}
    {devices : AList (fun _ : String => String)} {n : String} :
    n ∈ liveNodeIDs aliveNodes devices ↔
      (∃ entry ∈ devices.entries, sessionNodeID entry.2 = n) ∧ isAlive aliveNodes n = true := by
  simp [liveNodeIDs]

namespace RouterState

variable (s : RouterState)

def setCall (i : ℕ) (call : ResolveCall) : RouterState :=
  { s with calls := update s.calls i call }

/-- Look one user up. If all cached nodes are dead, the user is read from Redis. -/
def lookUp (i : ℕ) (userID : Int) (userIDs missing : List Int) : RouterState :=
  let call := s.calls i
  let s' := { s with sessionCache := (getCachedSession s.now userID s.sessionCache).2 }
  match cacheHit s.now call.aliveNodes userID s.sessionCache with
  | some entry =>
    s'.setCall i
      { call with
        result := addToNodes userID (entry.nodeIDs.filter (isAlive call.aliveNodes)) call.result
        phase := .looking userIDs missing }
  | none => s'.setCall i { call with phase := .looking userIDs (missing ++ [userID]) }

def read (i : ℕ) (err : Option String) (userID : Int) (missing : List Int)
    (cmds : List DeviceRead) : RouterState :=
  let call := s.calls i
  match err with
  | some e => s.setCall i { call with phase := .failed ("resolve user nodes pipeline: " ++ e) }
  | none =>
    let cmd : DeviceRead :=
      { userID
        devices := getDevices userID s.sessions
        seen := s.changes userID }
    s.setCall i { call with phase := .reading missing (cmds ++ [cmd]) }

def store (i : ℕ) (cmd : DeviceRead) (cmds : List DeviceRead) : RouterState :=
  let call := s.calls i
  let cached := liveNodeIDs call.aliveNodes cmd.devices
  { s with
    sessionCache :=
      setCachedSession (s.now + s.sessionCacheTTL) cmd.userID cached cmd.seen s.sessionCache
    calls := update s.calls i
      { call with
        result := addToNodes cmd.userID cached call.result
        phase := .storing cmds } }

/-- The next step of a call. `err` is the error of Redis, if the step reads and there is one. -/
def advance (i : ℕ) (err : Option String) : RouterState :=
  let call := s.calls i
  match call.phase with
  | .looking (userID :: userIDs) missing => s.lookUp i userID userIDs missing
  | .looking [] [] => s.setCall i { call with phase := .returned }
  | .looking [] missing => s.setCall i { call with phase := .reading missing [] }
  | .reading (userID :: missing) cmds => s.read i err userID missing cmds
  | .reading [] cmds => s.setCall i { call with phase := .storing cmds }
  | .storing (cmd :: cmds) => s.store i cmd cmds
  | .storing [] => s.setCall i { call with phase := .returned }
  | .returned => s
  | .failed _ => s

/-- The sessions have changed, and the event of the change is published. -/
def changed (sessions : Sessions) (event : SessionChangeEvent) : RouterState :=
  { s with
    sessions
    changes := update s.changes event.userID (s.changes event.userID + 1)
    pending := s.pending ++ [(event, s.changes event.userID + 1)] }

def receive (k : ℕ) : RouterState :=
  match s.pending[k]? with
  | none => s
  | some (event, change) =>
    { s with
      pending := s.pending.eraseIdx k
      processed := (event.userID, change) :: s.processed
      sessionCache := invalidateSessionCache event.userID s.sessionCache }

end RouterState

inductive RouterOp where
  | sleep (d : ℕ)
  | setSession (nodeID : String) (userID : Int) (deviceID connID : String)
  | delSession (nodeID : String) (userID : Int) (deviceID connID : String)
  | receive (k : ℕ)
  | resolve (call : ℕ) (userIDs : List Int) (aliveNodes : List GatewayNodeInfo)
  | advance (call : ℕ) (err : Option String)

def routerStep (s : RouterState) : RouterOp → RouterState
  | .sleep d => { s with now := s.now + d }
  | .setSession nodeID userID deviceID connID =>
    let (sessions, event) := SessionManager.setSession ⟨nodeID⟩ userID deviceID connID s.sessions
    s.changed sessions event
  | .delSession nodeID userID deviceID connID =>
    match SessionManager.delSession ⟨nodeID⟩ userID deviceID connID s.sessions with
    | (sessions, some event) => s.changed sessions event
    | (_, none) => s
  | .receive k => s.receive k
  | .resolve i userIDs aliveNodes => s.setCall i { aliveNodes, phase := .looking userIDs [] }
  | .advance i err => s.advance i err

end NonokaIM
