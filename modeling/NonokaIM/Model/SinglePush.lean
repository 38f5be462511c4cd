import NonokaIM.Model.Pusher

/-! Pushes to a single user, and batch pushes of one receipt. Batch pushes only count devices; here
they are named. -/

namespace NonokaIM

/-! ## One user -/

/-- How a push to one user ends on one gateway, with the devices that got the packet. -/
inductive UserRpc where
  | replied (devices : List String)
  | failed (devices : List String) (text : String)

def UserRpc.devices : UserRpc → List String
  | .replied devices => devices
  | .failed devices _ => devices

/-- `resp.GetDeliveredCount() > 0`. -/
def UserRpc.delivered : UserRpc → Bool
  | .replied devices => devices ≠ []
  | .failed _ _ => false

/-- Call one gateway after the other until one has delivered: the devices that got the packet,
and the count of the last reply. -/
def callUntilDelivered : List UserRpc → List String × Option ℕ
  | [] => ([], none)
  | o :: os =>
    if o.delivered then (o.devices, some o.devices.length)
    else (o.devices ++ (callUntilDelivered os).1, (callUntilDelivered os).2)

/-- The answers during one push. `nodes` are the live nodes with sessions of the user, in the
order in which the loop over the map comes to them. -/
structure UserPushAnswers where
  nodes : Except String (List String) := .ok []
  aliveNodes : Except String (List GatewayNodeInfo) := .ok []
  dials : String → Bool := fun _ => true
  nodeRpc : String → UserRpc := fun _ => .replied []
  staticRpc : ℕ → UserRpc := fun _ => .replied []

structure UserPush where
  devices : List String
  result : Except String ℕ

def reachableNodes (dials : String → Bool) (aliveNodes : List GatewayNodeInfo)
    (nodes : List String) : List String :=
  nodes.filter fun nodeID =>
    nodeAddr aliveNodes nodeID ≠ "" && dials (nodeAddr aliveNodes nodeID)

namespace GatewayPusher

/-- Push one packet to a user. `what` begins the texts of the errors. -/
def pushPacketToUser (what : String) (p : GatewayPusher) (answers : UserPushAnswers)
    (userID : Int) : UserPush :=
  let finish (calls : List UserRpc) (reason : String) : UserPush :=
    { devices := (callUntilDelivered calls).1
      result :=
        match (callUntilDelivered calls).2 with
        | some count => .ok count
        | none => .error (what ++ " to user " ++ toString userID ++ " failed" ++ reason) }
  let static := finish ((List.range p.staticConns.length).map answers.staticRpc) " on all gateways"
  if p.router then
    match answers.nodes, answers.aliveNodes with
    | .ok nodes, .ok aliveNodes =>
      finish ((reachableNodes answers.dials aliveNodes nodes).map answers.nodeRpc)
        ": no online session or reachable gateway"
    | _, _ => static
  else static

def pushToUser : GatewayPusher → UserPushAnswers → Int → UserPush := pushPacketToUser "push"

def pushReceiptToUser : GatewayPusher → UserPushAnswers → Int → UserPush :=
  pushPacketToUser "push receipt"

end GatewayPusher

/-! ## One receipt for several users -/

def batchPushReceiptsStatic : List String → (ℕ → RpcOutcome) → List Int → PushReply :=
  batchPushVia "batch push receipts"

/-- The part of `batchPushReceiptsWithRouting` after the lookups. Other than for messages, the
users of a node without an address are failed. -/
def pushReceiptToNodes (answers : PushAnswers) (aliveNodes : List GatewayNodeInfo)
    (nodeMap : List (String × List Int)) (userIDs : List Int) : PushReply :=
  let reply := pushToNodes answers aliveNodes nodeMap userIDs
  { reply with
    failedIDs :=
      ((nodeMap.filter fun np => nodeAddr aliveNodes np.1 = "").flatMap Prod.snd) ++
        reply.failedIDs }

namespace GatewayPusher

/-- The calls that a routed batch push makes, of a message or of a receipt: the nodes that can be
dialled, with their users. -/
def batchCalls (p : GatewayPusher) (answers : PushAnswers) (userIDs : List Int) :
    List (String × List Int) :=
  match p.route answers userIDs with
  | some (aliveNodes, nodeMap) =>
    (nodePushes aliveNodes nodeMap).filter fun np => answers.dials (nodeAddr aliveNodes np.1)
  | none => []

def batchPushReceiptToUsers (p : GatewayPusher) (answers : PushAnswers)
    (userIDs : List Int) : PushReply :=
  if userIDs = [] then {}
  else
    match p.route answers userIDs with
    | some (aliveNodes, nodeMap) => pushReceiptToNodes answers aliveNodes nodeMap userIDs
    | none => batchPushReceiptsStatic p.staticConns answers.staticRpc userIDs

end GatewayPusher

end NonokaIM
