import NonokaIM.Model.SinglePush
import NonokaIM.Model.Router

/-! Single pushes against batch pushes of one user: a single push stops at the first node that has
delivered. -/

namespace NonokaIM

open List GatewayPusher

/-- The devices of a user: the live gateways, the sessions, and which devices take a packet.
Gateways with an address can be dialled and answer. -/
structure UserDevices where
  aliveNodes : List GatewayNodeInfo
  sessions : AList (fun _ : String => String)
  takes : String → Bool := fun _ => true

namespace UserDevices

variable (d : UserDevices)

def devicesOn (nodeID : String) : List String :=
  (d.sessions.entries.filter fun entry => sessionNodeID entry.2 = nodeID && d.takes entry.1).map
    Sigma.fst

def nodes : List String := liveNodeIDs d.aliveNodes d.sessions

def userAnswers (order : List String) : UserPushAnswers where
  nodes := .ok order
  aliveNodes := .ok d.aliveNodes
  nodeRpc := fun nodeID => .replied (d.devicesOn nodeID)

def batchAnswers : PushAnswers where
  aliveNodes := .ok d.aliveNodes
  sessions := .ok fun _ => d.sessions.entries.map fun entry => sessionNodeID entry.2
  nodeRpc := fun nodeID => .replied fun _ => (d.devicesOn nodeID).length

/-- The devices that a batch push of this user reaches, of a message or of a receipt. -/
def batchDevices (p : GatewayPusher) (userID : Int) : List String :=
  (p.batchCalls d.batchAnswers [userID]).flatMap fun np => d.devicesOn np.1

variable {d}

variable {device : String}

theorem devicesOn_disjoint {n n' : String} (h : device ∈ d.devicesOn n)
    (h' : device ∈ d.devicesOn n') : n = n' := by
  simp only [devicesOn, mem_map, mem_filter, Bool.and_eq_true, decide_eq_true_eq] at h h'
  obtain ⟨entry, ⟨hentry, hnode, _⟩, rfl⟩ := h
  obtain ⟨entry', ⟨hentry', hnode', _⟩, hsame⟩ := h'
  have heq : entry = entry' := d.sessions.nodupKeys.eq_of_fst_eq hentry hentry' hsame.symm
  rw [← hnode, ← hnode', heq]

/-! ## The nodes of a batch push -/

theorem usersWhere_single (test : ℕ → Bool) (userID : Int) :
    usersWhere test [userID] = if test 0 then [userID] else [] := by
  cases h : test 0 <;> simp [usersWhere, h]

theorem mem_batchCalls (conns : List String) (userID : Int) {np : String × List Int} :
    np ∈ batchCalls ⟨conns, true⟩ d.batchAnswers [userID] ↔
      np.2 = [userID] ∧ np.1 ∈ d.nodes ∧ nodeAddr d.aliveNodes np.1 ≠ "" := by
  obtain ⟨nodeID, ids⟩ := np
  simp only [batchCalls, route, batchAnswers, if_true, nodePushes,
    resolveUserNodes, usersWhere_single, filter_true, mem_filter, mem_filterMap,
    mem_dedup, decide_eq_true_eq, nodes, mem_liveNodeIDs, isAlive, contains_iff_mem,
    mem_map]
  constructor
  · rintro ⟨⟨n, halive, hsome⟩, haddr⟩
    by_cases hsession : ∃ entry ∈ d.sessions.entries, sessionNodeID entry.2 = n
    · simp only [hsession, if_true, cons_ne_nil, if_false, Option.some.injEq,
        Prod.mk.injEq] at hsome
      obtain ⟨rfl, rfl⟩ := hsome
      exact ⟨rfl, ⟨hsession, halive⟩, haddr⟩
    · simp [hsession] at hsome
  · rintro ⟨rfl, ⟨hsession, halive⟩, haddr⟩
    exact ⟨⟨nodeID, halive, by simp [hsession]⟩, haddr⟩

theorem mem_batchDevices (conns : List String) (userID : Int) :
    device ∈ d.batchDevices ⟨conns, true⟩ userID ↔
      ∃ n ∈ d.nodes, nodeAddr d.aliveNodes n ≠ "" ∧ device ∈ d.devicesOn n := by
  simp only [batchDevices, mem_flatMap, mem_batchCalls]
  constructor
  · rintro ⟨np, ⟨_, hnode, haddr⟩, hdevice⟩
    exact ⟨np.1, hnode, haddr, hdevice⟩
  · rintro ⟨n, hnode, haddr, hdevice⟩
    exact ⟨(n, [userID]), ⟨rfl, hnode, haddr⟩, hdevice⟩

/-- The calls of a batch push count the devices that it reaches. -/
theorem totalDelivered_batch (conns : List String) (userID : Int) :
    (batchPushToUsers ⟨conns, true⟩ d.batchAnswers [userID]).totalDelivered =
        (d.batchDevices ⟨conns, true⟩ userID).length ∧
      (batchPushReceiptToUsers ⟨conns, true⟩ d.batchAnswers [userID]).totalDelivered =
        (d.batchDevices ⟨conns, true⟩ userID).length := by
  have hcalls : batchCalls ⟨conns, true⟩ d.batchAnswers [userID] =
      nodePushes d.aliveNodes (resolveUserNodes (fun _ => d.sessions.entries.map fun entry =>
        sessionNodeID entry.2) [userID] d.aliveNodes) := filter_true _
  have hcount : ∀ np ∈ batchCalls ⟨conns, true⟩ d.batchAnswers [userID],
      (pushToNode d.batchAnswers d.aliveNodes np).1 = (d.devicesOn np.1).length := by
    intro np hnp
    rw [pushToNode, ((mem_batchCalls conns userID).mp hnp).1]
    simp [batchAnswers, RpcOutcome.reply]
  have htotal : (pushToNodes d.batchAnswers d.aliveNodes (resolveUserNodes (fun _ =>
      d.sessions.entries.map fun entry => sessionNodeID entry.2) [userID] d.aliveNodes)
      [userID]).totalDelivered = (d.batchDevices ⟨conns, true⟩ userID).length := by
    rw [batchDevices, length_flatMap, ← map_congr_left hcount, hcalls, pushToNodes, map_map]
    rfl
  exact ⟨htotal, htotal⟩

theorem mem_callUntilDelivered (devices : String → List String) (nodes : List String) :
    device ∈ (callUntilDelivered (nodes.map fun n => .replied (devices n))).1 ↔
      ∃ n, nodes.find? (fun n => devices n ≠ []) = some n ∧ device ∈ devices n := by
  induction nodes with
  | nil => simp [callUntilDelivered]
  | cons n nodes ih =>
    by_cases hnil : devices n = []
    · simpa [callUntilDelivered, UserRpc.delivered, UserRpc.devices, hnil] using ih
    · simp [callUntilDelivered, UserRpc.delivered, UserRpc.devices, hnil]

theorem mem_devices_pushPacketToUser (what : String) (conns : List String) (order : List String)
    (userID : Int) :
    device ∈ (pushPacketToUser what ⟨conns, true⟩ (d.userAnswers order) userID).devices ↔
      ∃ n, (reachableNodes (fun _ => true) d.aliveNodes order).find? (fun n => d.devicesOn n ≠ []) =
        some n ∧ device ∈ d.devicesOn n :=
  mem_callUntilDelivered d.devicesOn _

/-! ## Agreement -/

/-- At most one live node with an address has devices that take the packet. -/
def OneNode (d : UserDevices) : Prop :=
  ∀ n ∈ d.nodes, ∀ n' ∈ d.nodes, nodeAddr d.aliveNodes n ≠ "" → nodeAddr d.aliveNodes n' ≠ "" →
    d.devicesOn n ≠ [] → d.devicesOn n' ≠ [] → n = n'

def SameDevices (xs ys : List String) : Prop := ∀ device, device ∈ xs ↔ device ∈ ys

theorem mem_reachableNodes {order : List String} (horder : order.Perm d.nodes) {n : String} :
    n ∈ reachableNodes (fun _ => true) d.aliveNodes order ↔
      n ∈ d.nodes ∧ nodeAddr d.aliveNodes n ≠ "" := by
  simp [reachableNodes, horder.mem_iff]

theorem same_devices_iff (what : String) (conns : List String) (userID : Int)
    {order : List String} (horder : order.Perm d.nodes) :
    SameDevices (pushPacketToUser what ⟨conns, true⟩ (d.userAnswers order) userID).devices
        (d.batchDevices ⟨conns, true⟩ userID) ↔ d.OneNode := by
  constructor
  · intro hsame
    -- every device with the packet is on the node at which the loop has stopped
    have hfirst : ∀ n ∈ d.nodes, nodeAddr d.aliveNodes n ≠ "" → d.devicesOn n ≠ [] →
        (reachableNodes (fun _ => true) d.aliveNodes order).find? (fun n => d.devicesOn n ≠ []) =
          some n := by
      intro n hn haddr hne
      obtain ⟨device, hdevice⟩ := exists_mem_of_ne_nil _ hne
      have hsingle := (hsame device).mpr
        ((mem_batchDevices conns userID).mpr ⟨n, hn, haddr, hdevice⟩)
      obtain ⟨first, hfind, hmem⟩ := (mem_devices_pushPacketToUser _ _ _ _).mp hsingle
      rw [hfind, devicesOn_disjoint hmem hdevice]
    intro n hn n' hn' haddr haddr' hne hne'
    exact Option.some.inj ((hfirst n hn haddr hne).symm.trans (hfirst n' hn' haddr' hne'))
  · intro hone device
    rw [mem_devices_pushPacketToUser, mem_batchDevices]
    constructor
    · rintro ⟨n, hfind, hdevice⟩
      have hn := (mem_reachableNodes horder).mp (mem_of_find?_eq_some hfind)
      exact ⟨n, hn.1, hn.2, hdevice⟩
    · rintro ⟨n, hn, haddr, hdevice⟩
      have hne : d.devicesOn n ≠ [] := ne_nil_of_mem hdevice
      cases hfind : (reachableNodes (fun _ => true) d.aliveNodes order).find?
          (fun n => d.devicesOn n ≠ []) with
      | none =>
        have hnone := find?_eq_none.mp hfind n ((mem_reachableNodes horder).mpr ⟨hn, haddr⟩)
        simp [hne] at hnone
      | some first =>
        have hmem := (mem_reachableNodes horder).mp (mem_of_find?_eq_some hfind)
        have hdevices : d.devicesOn first ≠ [] := by simpa using find?_some hfind
        obtain rfl := hone first hmem.1 n hn hmem.2 haddr hdevices hne
        exact ⟨first, rfl, hdevice⟩

/-- The batch pushes of a message and of a receipt count the same devices. A single push reaches
them, whatever the order of the nodes, exactly if the devices are on one node. -/
theorem single_push_complete_iff (d : UserDevices) (conns : List String) (userID : Int)
    {order : List String} (horder : order.Perm d.nodes) :
    ((batchPushToUsers ⟨conns, true⟩ d.batchAnswers [userID]).totalDelivered =
        (d.batchDevices ⟨conns, true⟩ userID).length ∧
      (batchPushReceiptToUsers ⟨conns, true⟩ d.batchAnswers [userID]).totalDelivered =
        (d.batchDevices ⟨conns, true⟩ userID).length) ∧
    ((SameDevices (pushToUser ⟨conns, true⟩ (d.userAnswers order) userID).devices
        (d.batchDevices ⟨conns, true⟩ userID) ∧
      SameDevices (pushReceiptToUser ⟨conns, true⟩ (d.userAnswers order) userID).devices
        (d.batchDevices ⟨conns, true⟩ userID)) ↔ d.OneNode) := by
  refine ⟨totalDelivered_batch conns userID, ?_⟩
  have hmessage := same_devices_iff (d := d) "push" conns userID horder
  have hreceipt := same_devices_iff (d := d) "push receipt" conns userID horder
  constructor
  · intro h
    exact hmessage.mp h.1
  · intro hone
    exact ⟨hmessage.mpr hone, hreceipt.mpr hone⟩

end UserDevices

def devicesAcross (nodeID : String) : UserDevices where
  aliveNodes := [⟨"gw1", "gw1:9000"⟩, ⟨"gw2", "gw2:9000"⟩]
  sessions := (AList.insert "laptop" (nodeID ++ "|c2") ∅).insert "phone" "gw1|c1"

theorem one_gateway_reached :
    UserDevices.SameDevices
        (pushToUser ⟨[], true⟩ ((devicesAcross "gw1").userAnswers ["gw1"]) 7).devices
        ((devicesAcross "gw1").batchDevices ⟨[], true⟩ 7) ∧
      UserDevices.SameDevices (pushReceiptToUser ⟨[], true⟩
          ((devicesAcross "gw1").userAnswers ["gw1"]) 7).devices
        ((devicesAcross "gw1").batchDevices ⟨[], true⟩ 7) := by
  apply (UserDevices.single_push_complete_iff (devicesAcross "gw1") [] 7 (by decide)).2.mpr
  have hnodes : (devicesAcross "gw1").nodes = ["gw1"] := by decide
  intro n hn n' hn' _ _ _ _
  rw [hnodes] at hn hn'
  exact (mem_singleton.mp hn).trans (mem_singleton.mp hn').symm

/-- With the laptop on the second gateway, a single push reaches the phone only. -/
theorem second_gateway_not_reached :
    ["gw1", "gw2"].Perm (devicesAcross "gw2").nodes ∧
      (pushToUser ⟨[], true⟩ ((devicesAcross "gw2").userAnswers ["gw1", "gw2"])
        7).devices = ["phone"] ∧
      (pushReceiptToUser ⟨[], true⟩
        ((devicesAcross "gw2").userAnswers ["gw1", "gw2"]) 7).devices = ["phone"] ∧
      "laptop" ∈ (devicesAcross "gw2").batchDevices ⟨[], true⟩ 7 := by
  decide

end NonokaIM
