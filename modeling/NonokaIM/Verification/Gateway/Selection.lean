import NonokaIM.Verification.Gateway.HashRing

/-! # Sending users to a gateway

A user keeps the gateway while it is there and none comes that takes the key over. -/

namespace NonokaIM

open AddRemove ConsistentHash List GatewayNode Option

variable {hash : String → ℕ} {nodes nodes' : List GatewayNode} {n : GatewayNode} {key : String}

def nodeIDs (nodes : List GatewayNode) : Set String := {id | id ∈ nodes.map nodeID}

theorem nodeID_mem (h : n ∈ nodes) : n.nodeID ∈ nodeIDs nodes := mem_map_of_mem h

theorem nodeIDs_nonempty (h : nodes ≠ []) : (nodeIDs nodes).Nonempty := by
  obtain ⟨n, hn⟩ := exists_mem_of_ne_nil nodes h
  exact ⟨n.nodeID, nodeID_mem hn⟩

theorem nodeIDs_cons : nodeIDs (n :: nodes) = insert n.nodeID (nodeIDs nodes) := by
  ext id
  simp [nodeIDs]

theorem nodeIDs_of_perm (h : nodes.Perm nodes') : nodeIDs nodes = nodeIDs nodes' :=
  Set.ext fun _ => (h.map nodeID).mem_iff

theorem eq_of_nodeID (hids : (nodes.map nodeID).Nodup) {m : GatewayNode}
    (hn : n ∈ nodes) (hm : m ∈ nodes) (h : n.nodeID = m.nodeID) : n = m :=
  inj_on_of_nodup_map hids hn hm h

/-! ## The selected node -/

def selectedID (hash : String → ℕ) (nodes : List GatewayNode) (key : String) : Option String :=
  (selectByConsistentHash hash nodes key).map nodeID

theorem ringOf_eq_ringAfter (nodes : List GatewayNode) :
    ringOf hash nodes = ringAfter hash defaultVirtualReplicas ((nodes.map nodeID).map .add) := by
  rw [ringOf, ringAfter, run, foldl_map, foldl_map]
  rfl

section

variable (hdist : DistinctPoints hash defaultVirtualReplicas (nodeIDs nodes))
include hdist

theorem keyOwner_ringOf (hne : nodes ≠ []) (key : String) :
    KeyOwner hash defaultVirtualReplicas (nodeIDs nodes) key
      ((ringOf hash nodes).get hash key) := by
  have hadded : addedNodes ((nodes.map nodeID).map .add) = nodeIDs nodes := by
    ext id
    simp [addedNodes, nodeIDs]
  have hholds := holds_run hash defaultVirtualReplicas
    ((nodes.map nodeID).map .add) (by rw [hadded]; exact hdist)
  rw [live_map_add] at hholds
  have howner := hholds.keyOwner_get (ringAfter_pos _ _) (nodeIDs_nonempty hne) key
  rw [replicas_run] at howner
  rw [ringOf_eq_ringAfter]
  exact howner

theorem selectByConsistentHash_spec (hne : nodes ≠ []) (key : String) :
    ∃ n ∈ nodes, selectByConsistentHash hash nodes key = some n ∧
      KeyOwner hash defaultVirtualReplicas (nodeIDs nodes) key n.nodeID := by
  have howner := keyOwner_ringOf hdist hne key
  match nodes, hne with
  | [n], _ =>
    refine ⟨n, mem_singleton_self n, rfl, ?_⟩
    rwa [mem_singleton.mp howner.mem] at howner
  | n :: m :: ns, _ =>
    obtain ⟨k, hk, hid⟩ := mem_map.mp howner.mem
    obtain ⟨sel, hsel⟩ := isSome_iff_exists.mp (find?_isSome
      (p := fun k => k.nodeID = (ringOf hash (n :: m :: ns)).get hash key).mpr
      ⟨k, hk, decide_eq_true hid⟩)
    refine ⟨sel, mem_of_find?_eq_some hsel, ?_, ?_⟩
    · simp [selectByConsistentHash, hsel]
    · have hselID := find?_some hsel
      rwa [decide_eq_true_eq.mp hselID]

theorem select_of_subset (hsub : nodeIDs nodes' ⊆ nodeIDs nodes)
    (hsel : selectByConsistentHash hash nodes key = some n) (hn : n.nodeID ∈ nodeIDs nodes') :
    ∃ n' ∈ nodes', selectByConsistentHash hash nodes' key = some n' ∧ n'.nodeID = n.nodeID := by
  have hne : nodes ≠ [] := by
    rintro rfl
    exact some_ne_none n hsel.symm
  have hne' : nodes' ≠ [] := by
    rintro rfl
    exact not_mem_nil hn
  obtain ⟨m, -, hm, howner⟩ := selectByConsistentHash_spec hdist hne key
  obtain rfl := some.inj (hsel.symm.trans hm)
  obtain ⟨n', hn', hsel', howner'⟩ := selectByConsistentHash_spec (hdist.mono hsub) hne' key
  exact ⟨n', hn', hsel', howner'.unique (hdist.mono hsub) (howner.of_subset hsub hn)⟩

theorem selectedID_eq_of_ids (hids : nodeIDs nodes' = nodeIDs nodes) (hne : nodes ≠ [])
    (key : String) :
    selectedID hash nodes' key = selectedID hash nodes key := by
  obtain ⟨n, hn, hsel, -⟩ := selectByConsistentHash_spec hdist hne key
  obtain ⟨n', -, hsel', hid⟩ :=
    select_of_subset hdist hids.subset hsel (hids ▸ nodeID_mem hn)
  rw [selectedID, selectedID, hsel, hsel', map_some, map_some, hid]

theorem selectedID_of_added (hperm : nodes.Perm (n :: nodes')) (key : String) :
    selectedID hash nodes key = selectedID hash nodes' key ∨
      selectedID hash nodes key = some n.nodeID := by
  have hne : nodes ≠ [] := by
    rintro rfl
    exact cons_ne_nil n nodes' (nil_perm.mp hperm)
  have hids := (nodeIDs_of_perm hperm).trans nodeIDs_cons
  obtain ⟨m, hm, hsel, -⟩ := selectByConsistentHash_spec hdist hne key
  rcases (hids ▸ nodeID_mem hm : m.nodeID ∈ insert n.nodeID (nodeIDs nodes')) with hid | hold
  · right
    rw [selectedID, hsel, map_some, hid]
  · left
    have hsub : nodeIDs nodes' ⊆ nodeIDs nodes := hids ▸ Set.subset_insert _ _
    obtain ⟨m', -, hsel', hid⟩ := select_of_subset hdist hsub hsel hold
    rw [selectedID, selectedID, hsel, hsel', map_some, map_some, hid]

theorem select_of_removed (hids : (nodes.map nodeID).Nodup) (hperm : nodes.Perm (n :: nodes'))
    (hsel : selectByConsistentHash hash nodes key ≠ some n) :
    selectByConsistentHash hash nodes' key = selectByConsistentHash hash nodes key := by
  have hne : nodes ≠ [] := by
    rintro rfl
    exact cons_ne_nil n nodes' (nil_perm.mp hperm)
  have hsub : ∀ m ∈ nodes', m ∈ nodes :=
    fun m hm => hperm.mem_iff.mpr (mem_cons_of_mem n hm)
  obtain ⟨m, hm, hselm, -⟩ := selectByConsistentHash_spec hdist hne key
  have hm' : m ∈ nodes' := by
    rcases mem_cons.mp (hperm.mem_iff.mp hm) with rfl | hm'
    · exact absurd hselm hsel
    · exact hm'
  have hsubIDs : nodeIDs nodes' ⊆ nodeIDs nodes := by
    rw [nodeIDs_of_perm hperm, nodeIDs_cons]
    exact Set.subset_insert _ _
  obtain ⟨k, hk, hselk, hid⟩ := select_of_subset hdist hsubIDs hselm (nodeID_mem hm')
  rw [hselk, hselm, eq_of_nodeID hids (hsub k hk) hm hid]

end

/-- A node of the list is selected, which depends on the set of ids only. A node that comes changes
it only to itself, and a node that goes changes it only where it was selected. -/
theorem selection_stable (hash : String → ℕ) (nodes : List GatewayNode) (hne : nodes ≠ [])
    (hids : (nodes.map nodeID).Nodup)
    (hdist : DistinctPoints hash defaultVirtualReplicas (nodeIDs nodes)) (key : String) :
    (∃ n ∈ nodes, selectByConsistentHash hash nodes key = some n) ∧
    (∀ nodes', (nodes'.map nodeID).Nodup → nodeIDs nodes' = nodeIDs nodes →
      selectedID hash nodes' key = selectedID hash nodes key) ∧
    (∀ n nodes', nodes'.Perm (n :: nodes) → (nodes'.map nodeID).Nodup →
      DistinctPoints hash defaultVirtualReplicas (nodeIDs nodes') →
      selectedID hash nodes' key = selectedID hash nodes key ∨
        selectedID hash nodes' key = some n.nodeID) ∧
    ∀ n nodes', nodes.Perm (n :: nodes') → selectByConsistentHash hash nodes key ≠ some n →
      selectByConsistentHash hash nodes' key = selectByConsistentHash hash nodes key := by
  refine ⟨?_, ?_, ?_, ?_⟩
  · obtain ⟨n, hn, hsel, -⟩ := selectByConsistentHash_spec hdist hne key
    exact ⟨n, hn, hsel⟩
  · exact fun nodes' _ heq => selectedID_eq_of_ids hdist heq hne key
  · exact fun n nodes' hperm _ hdist' => selectedID_of_added hdist' hperm key
  · exact fun n nodes' hperm hsel => select_of_removed hdist hids hperm hsel

def gatewayNodes : List GatewayNode :=
  [⟨"gw-1", "ws://10.0.0.1:8081/ws", 3⟩, ⟨"gw-2", "ws://10.0.0.2:8081/ws", 5⟩]

theorem gatewayNodes_reversed :
    gatewayNodes ≠ [] ∧ (gatewayNodes.map nodeID).Nodup ∧
      DistinctPoints xxhashSum64 defaultVirtualReplicas (nodeIDs gatewayNodes) ∧
      selectedID xxhashSum64 gatewayNodes.reverse "42" =
        selectedID xxhashSum64 gatewayNodes "42" := by
  have hdist : DistinctPoints xxhashSum64 defaultVirtualReplicas (nodeIDs gatewayNodes) :=
    gateway_points_distinct
  have hstable := selection_stable xxhashSum64 gatewayNodes (by decide) (by decide) hdist "42"
  refine ⟨by decide, by decide, hdist, hstable.2.1 gatewayNodes.reverse (by decide) ?_⟩
  exact nodeIDs_of_perm (reverse_perm gatewayNodes)

end NonokaIM
