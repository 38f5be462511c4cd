import NonokaIM.Model.Delivery
import Mathlib.Algebra.GroupWithZero.Nat
import Mathlib.Data.List.Dedup

/-! The pusher of a worker: which gateways it calls, what it makes of their answers, and which users
have got the message. -/

namespace NonokaIM

/-- How `BatchPushToUsers` on one gateway ends. `devices i` is the number of devices reached at
position `i`; after an error the caller does not learn it. -/
inductive RpcOutcome where
  | replied (devices : ℕ → ℕ)
  | unencoded
  | failed (devices : ℕ → ℕ) (text : String)

def usersWhere (p : ℕ → Bool) (userIDs : List Int) : List Int :=
  (userIDs.zipIdx.filter fun x => p x.2).map Prod.fst

/-- The total of delivered devices and the failed users. A gateway that cannot encode the packet
replies without failed users. -/
def RpcOutcome.reply : RpcOutcome → List Int → Except String (ℕ × List Int)
  | .replied devices, userIDs =>
    .ok (((List.range userIDs.length).map devices).sum, usersWhere (fun i => devices i = 0) userIDs)
  | .unencoded, _ => .ok (0, [])
  | .failed _ text, _ => .error text

def RpcOutcome.received : RpcOutcome → List Int → List Int
  | .replied devices, userIDs => usersWhere (fun i => 0 < devices i) userIDs
  | .unencoded, _ => []
  | .failed devices _, userIDs => usersWhere (fun i => 0 < devices i) userIDs

structure GatewayNodeInfo where
  nodeID : String
  grpcAddr : String
  deriving DecidableEq

/-- The answers during one push: registry, sessions by position, dialled addresses, calls. -/
structure PushAnswers where
  aliveNodes : Except String (List GatewayNodeInfo) := .ok []
  sessions : Except String (ℕ → List String) := .ok fun _ => []
  dials : String → Bool := fun _ => true
  nodeRpc : String → RpcOutcome := fun _ => .replied fun _ => 1
  staticRpc : ℕ → RpcOutcome := fun _ => .replied fun _ => 1

structure GatewayPusher where
  staticConns : List String
  router : Bool

/-- Every gateway gets the full list. The second component tells for whom some gateway has not
reported a failure. -/
def pushToEach (userIDs : List Int) :
    List String → (ℕ → RpcOutcome) → ℕ × (Int → Bool) → ℕ × (Int → Bool)
  | [], _, acc => acc
  | _ :: conns, rpc, (totalDelivered, userSuccess) =>
    pushToEach userIDs conns (fun i => rpc (i + 1)) (match (rpc 0).reply userIDs with
      | .error _ => (totalDelivered, userSuccess)
      | .ok (delivered, failed) =>
        (totalDelivered + delivered,
          fun uid => userSuccess uid || (decide (uid ∈ userIDs) && !decide (uid ∈ failed))))

/-- `what` begins the text of the error. -/
def batchPushVia (what : String) (conns : List String) (rpc : ℕ → RpcOutcome)
    (userIDs : List Int) : PushReply :=
  match conns with
  | [] => { failedIDs := userIDs, err := some "no gateway connections available" }
  | [addr] =>
    match (rpc 0).reply userIDs with
    | .error e =>
      { failedIDs := userIDs
        err := some (what ++ " to " ++ toString userIDs.length ++ " users via gateway " ++
          addr ++ ": " ++ e) }
    | .ok (delivered, failed) => { totalDelivered := delivered, failedIDs := failed }
  | conns =>
    let (totalDelivered, userSuccess) := pushToEach userIDs conns rpc (0, fun _ => false)
    { totalDelivered, failedIDs := userIDs.filter fun uid => !userSuccess uid }

def batchPushStatic : List String → (ℕ → RpcOutcome) → List Int → PushReply :=
  batchPushVia "batch push"

def receivedStatic (conns : List String) (rpc : ℕ → RpcOutcome) (userIDs : List Int) : List Int :=
  (List.range conns.length).flatMap fun i => (rpc i).received userIDs

/-- `ResolveUserNodesWithNodes`: the users of the request by the live node that has a session of
theirs. -/
def resolveUserNodes (sessions : ℕ → List String) (userIDs : List Int)
    (aliveNodes : List GatewayNodeInfo) : List (String × List Int) :=
  (aliveNodes.map GatewayNodeInfo.nodeID).dedup.filterMap fun nodeID =>
    let ids := usersWhere (fun i => nodeID ∈ sessions i) userIDs
    if ids = [] then none else some (nodeID, ids)

/-- The address of a node in the map of live nodes, where a later entry replaces an earlier
one; empty for a node that is not there. -/
def nodeAddr (aliveNodes : List GatewayNodeInfo) (nodeID : String) : String :=
  match aliveNodes.reverse.find? (·.nodeID = nodeID) with
  | some node => node.grpcAddr
  | none => ""

def nodePushes (aliveNodes : List GatewayNodeInfo) (nodeMap : List (String × List Int)) :
    List (String × List Int) :=
  nodeMap.filter fun np => nodeAddr aliveNodes np.1 ≠ ""

def pushToNode (answers : PushAnswers) (aliveNodes : List GatewayNodeInfo)
    (np : String × List Int) : ℕ × List Int :=
  if answers.dials (nodeAddr aliveNodes np.1) then
    match (answers.nodeRpc np.1).reply np.2 with
    | .error _ => (0, np.2)
    | .ok reply => reply
  else (0, np.2)

/-- The part of `batchPushWithRouting` after the lookups. The nodes are called at the same time;
the order of the failed users has no meaning. -/
def pushToNodes (answers : PushAnswers) (aliveNodes : List GatewayNodeInfo)
    (nodeMap : List (String × List Int)) (userIDs : List Int) : PushReply :=
  let replies := (nodePushes aliveNodes nodeMap).map (pushToNode answers aliveNodes)
  { totalDelivered := (replies.map Prod.fst).sum
    failedIDs := replies.flatMap Prod.snd ++
      userIDs.filter fun uid => !nodeMap.any fun np => decide (uid ∈ np.2) }

def receivedNodes (answers : PushAnswers) (aliveNodes : List GatewayNodeInfo)
    (nodeMap : List (String × List Int)) : List Int :=
  (nodePushes aliveNodes nodeMap).flatMap fun np =>
    if answers.dials (nodeAddr aliveNodes np.1) then (answers.nodeRpc np.1).received np.2 else []

namespace GatewayPusher

/-- The live nodes and the users on each of them; nothing when a lookup fails and the static
gateways are used instead. -/
def route (p : GatewayPusher) (answers : PushAnswers) (userIDs : List Int) :
    Option (List GatewayNodeInfo × List (String × List Int)) :=
  if p.router then
    match answers.aliveNodes, answers.sessions with
    | .ok aliveNodes, .ok sessions =>
      some (aliveNodes, resolveUserNodes sessions userIDs aliveNodes)
    | _, _ => none
  else none

def batchPushToUsers (p : GatewayPusher) (answers : PushAnswers) (userIDs : List Int) : PushReply :=
  if userIDs = [] then {}
  else
    match p.route answers userIDs with
    | some (aliveNodes, nodeMap) => pushToNodes answers aliveNodes nodeMap userIDs
    | none => batchPushStatic p.staticConns answers.staticRpc userIDs

def received (p : GatewayPusher) (answers : PushAnswers) (userIDs : List Int) : List Int :=
  if userIDs = [] then []
  else
    match p.route answers userIDs with
    | some (aliveNodes, nodeMap) => receivedNodes answers aliveNodes nodeMap
    | none => receivedStatic p.staticConns answers.staticRpc userIDs

end GatewayPusher

end NonokaIM
