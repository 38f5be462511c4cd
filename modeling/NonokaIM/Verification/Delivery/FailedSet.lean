import NonokaIM.Verification.Delivery.Retries

/-! The failed users of a batch push, against those it has reached.

One failing node is enough to make a user failed in a routed push, and one successful gateway to
make them reached in a static one. -/

namespace NonokaIM

open List RpcOutcome GatewayPusher

/-! ## What a gateway reports -/

variable {userIDs : List Int}

theorem usersWhere_nodup (p : ℕ → Bool) (h : userIDs.Nodup) : (usersWhere p userIDs).Nodup := by
  have hsub : (usersWhere p userIDs).Sublist (userIDs.zipIdx.map Prod.fst) :=
    filter_sublist.map _
  rw [zipIdx_map_fst] at hsub
  exact h.sublist hsub

theorem mem_usersWhere_not {p q : ℕ → Bool} (hq : ∀ i, q i = !p i)
    (h : userIDs.Nodup) {u : Int} (hu : u ∈ userIDs) :
    u ∈ usersWhere p userIDs ↔ u ∉ usersWhere q userIDs := by
  obtain ⟨i, hi⟩ := mem_iff_getElem?.mp hu
  have honly : ∀ r : ℕ → Bool, u ∈ usersWhere r userIDs ↔ r i = true := by
    intro r
    rw [mem_usersWhere]
    constructor
    · intro hex
      obtain ⟨j, hj, hr⟩ := hex
      have hilt := (List.getElem?_eq_some_iff.mp hi).1
      rw [(getElem?_inj hilt h).mp (hi.trans hj.symm)]
      exact hr
    · intro hr
      exact ⟨i, hi, hr⟩
  rw [honly, honly, hq]
  cases p i <;> decide

namespace RpcOutcome

/-- A gateway that answers names exactly the users of whom it has delivered to no device. -/
def Honest (o : RpcOutcome) : Prop :=
  ∀ userIDs delivered failed, userIDs.Nodup → o.reply userIDs = .ok (delivered, failed) →
    ∀ u ∈ userIDs, (u ∈ failed ↔ u ∉ o.received userIDs)

theorem honest_iff (o : RpcOutcome) : o.Honest ↔ o.isUnencoded = false := by
  cases o with
  | replied devices =>
    simp only [isUnencoded, iff_true]
    intro userIDs delivered failed hnodup hreply u hu
    simp only [reply, Except.ok.injEq, Prod.mk.injEq] at hreply
    rw [← hreply.2, received]
    apply mem_usersWhere_not _ hnodup hu
    intro i
    by_cases h : devices i = 0 <;> simp [h, Nat.pos_iff_ne_zero]
  | unencoded =>
    simp only [isUnencoded, Bool.true_eq_false, iff_false]
    intro h
    have hbad := h [0] 0 [] (by decide) rfl 0 (by decide)
    revert hbad
    decide
  | failed devices text =>
    simp only [isUnencoded, iff_true]
    intro userIDs delivered failed _ hreply
    cases hreply

/-- The gateway has delivered to a device of the user, and the caller learns it. -/
def Confirms (o : RpcOutcome) (userIDs : List Int) (u : Int) : Prop :=
  o.isReplied = true ∧ u ∈ o.received userIDs

variable {o : RpcOutcome} {userIDs : List Int}

theorem spares_of_reply {failed : List Int} {delivered : ℕ} {u : Int}
    (h : o.reply userIDs = .ok (delivered, failed)) (hu : u ∈ userIDs) :
    o.Spares userIDs u ↔ u ∉ failed := by
  simp [Spares, h, hu]

theorem not_spares_of_error {e : String} {u : Int} (h : o.reply userIDs = .error e) :
    ¬ o.Spares userIDs u := by
  simp [Spares, h]

theorem spares_iff_confirms (ho : o.Honest) (hnodup : userIDs.Nodup) {u : Int} (hu : u ∈ userIDs) :
    o.Spares userIDs u ↔ o.Confirms userIDs u := by
  cases hreply : o.reply userIDs with
  | error e =>
    have hno : o.isReplied = false := by
      cases o with
      | failed devices text => rfl
      | replied devices | unencoded => cases hreply
    simp [not_spares_of_error hreply, Confirms, hno]
  | ok reply =>
    obtain ⟨delivered, failed⟩ := reply
    have hiff := ho userIDs delivered failed hnodup hreply u hu
    have hanswered : o.isReplied = true := by
      cases o with
      | replied devices => rfl
      | failed devices text => cases hreply
      | unencoded => cases (honest_iff _).mp ho
    simp [spares_of_reply hreply hu, Confirms, hanswered, hiff]

end RpcOutcome

/-- No gateway hides a failure. -/
structure PushAnswers.Honest (answers : PushAnswers) : Prop where
  node : ∀ nodeID, (answers.nodeRpc nodeID).Honest
  static : ∀ i, (answers.staticRpc i).Honest

section

variable (answers : PushAnswers) (aliveNodes : List GatewayNodeInfo)

def NodeReaches (np : String × List Int) (u : Int) : Prop :=
  answers.dials (nodeAddr aliveNodes np.1) = true ∧ u ∈ (answers.nodeRpc np.1).received np.2

def NodeConfirms (np : String × List Int) (u : Int) : Prop :=
  answers.dials (nodeAddr aliveNodes np.1) = true ∧ (answers.nodeRpc np.1).Confirms np.2 u

/-- A user with a session on a live node is pushed to through some node, and either every such
node confirms a delivery or none has delivered. -/
def NodesAgree (nodeMap : List (String × List Int)) (u : Int) : Prop :=
  (∃ np ∈ nodeMap, u ∈ np.2) →
    (∃ np ∈ nodePushes aliveNodes nodeMap, u ∈ np.2) ∧
    ((∀ np ∈ nodePushes aliveNodes nodeMap, u ∈ np.2 → NodeConfirms answers aliveNodes np u) ∨
      ∀ np ∈ nodePushes aliveNodes nodeMap, u ∈ np.2 → ¬ NodeReaches answers aliveNodes np u)

variable {answers aliveNodes}

variable {u : Int} {nodeMap : List (String × List Int)}

theorem NodeConfirms.reaches {np : String × List Int} (h : NodeConfirms answers aliveNodes np u) :
    NodeReaches answers aliveNodes np u :=
  ⟨h.1, h.2.2⟩

theorem mem_pushToNode_iff_not_confirms (hhonest : answers.Honest) {np : String × List Int}
    (hnodup : np.2.Nodup) (hu : u ∈ np.2) :
    u ∈ (pushToNode answers aliveNodes np).2 ↔ ¬ NodeConfirms answers aliveNodes np u := by
  unfold pushToNode NodeConfirms
  by_cases hdial : answers.dials (nodeAddr aliveNodes np.1) = true
  · rw [if_pos hdial, ← spares_iff_confirms (hhonest.node np.1) hnodup hu]
    cases hreply : (answers.nodeRpc np.1).reply np.2 with
    | error e => simp [not_spares_of_error hreply, hu]
    | ok reply => simp [spares_of_reply hreply hu, hdial]
  · simp [hdial, hu]

theorem mem_receivedNodes_iff_reaches :
    u ∈ receivedNodes answers aliveNodes nodeMap ↔
      ∃ np ∈ nodePushes aliveNodes nodeMap, u ∈ np.2 ∧ NodeReaches answers aliveNodes np u := by
  simp only [mem_receivedNodes, nodePushes, mem_filter, decide_eq_true_eq, and_assoc, NodeReaches]
  apply exists_congr
  intro np
  have hsub : u ∈ (answers.nodeRpc np.1).received np.2 → u ∈ np.2 :=
    fun h => received_subset _ _ h
  tauto

theorem mem_failed_iff_not_confirmed (hhonest : answers.Honest)
    (hnodup : ∀ np ∈ nodeMap, np.2.Nodup) {userIDs : List Int}
    (honline : ∃ np ∈ nodeMap, u ∈ np.2) :
    u ∈ (pushToNodes answers aliveNodes nodeMap userIDs).failedIDs ↔
      ∃ np ∈ nodePushes aliveNodes nodeMap, u ∈ np.2 ∧ ¬ NodeConfirms answers aliveNodes np u := by
  have hoffline : ¬ ∀ np ∈ nodeMap, u ∉ np.2 := by
    intro h
    obtain ⟨np, hnp, hin⟩ := honline
    exact h np hnp hin
  rw [mem_failed_pushToNodes, or_iff_left fun h => hoffline h.2]
  simp only [nodePushes, mem_filter, decide_eq_true_eq, and_assoc]
  apply exists_congr
  intro np
  apply and_congr_right
  intro hnp
  apply and_congr_right
  intro _
  constructor
  · intro hfailed
    have hin := pushToNode_subset _ _ _ hfailed
    exact ⟨hin, (mem_pushToNode_iff_not_confirms hhonest (hnodup np hnp) hin).mp hfailed⟩
  · intro h
    exact (mem_pushToNode_iff_not_confirms hhonest (hnodup np hnp) h.1).mpr h.2

theorem nodes_exact_iff (hhonest : answers.Honest) (hnodup : ∀ np ∈ nodeMap, np.2.Nodup)
    {userIDs : List Int} (hu : u ∈ userIDs) :
    (u ∈ (pushToNodes answers aliveNodes nodeMap userIDs).failedIDs ↔
        u ∉ receivedNodes answers aliveNodes nodeMap) ↔
      NodesAgree answers aliveNodes nodeMap u := by
  by_cases honline : ∃ np ∈ nodeMap, u ∈ np.2
  · rw [mem_failed_iff_not_confirmed hhonest hnodup honline, mem_receivedNodes_iff_reaches]
    simp only [NodesAgree, honline, forall_const]
    constructor
    · intro hexact
      by_cases hfailed : ∃ np ∈ nodePushes aliveNodes nodeMap,
          u ∈ np.2 ∧ ¬ NodeConfirms answers aliveNodes np u
      · have hnone := hexact.mp hfailed
        obtain ⟨np, hnp, hin, _⟩ := hfailed
        exact ⟨⟨np, hnp, hin⟩, .inr fun np hnp hin hreach => hnone ⟨np, hnp, hin, hreach⟩⟩
      · have hsome := not_not.mp (mt hexact.mpr hfailed)
        obtain ⟨np, hnp, hin, _⟩ := hsome
        refine ⟨⟨np, hnp, hin⟩, .inl ?_⟩
        intro np hnp hin
        by_contra hno
        exact hfailed ⟨np, hnp, hin, hno⟩
    · intro hagree
      obtain ⟨⟨np, hnp, hin⟩, hall | hnone⟩ := hagree
      · constructor
        · intro hfailed
          obtain ⟨np', hnp', hin', hno⟩ := hfailed
          exact absurd (hall np' hnp' hin') hno
        · intro hno
          exact absurd ⟨np, hnp, hin, (hall np hnp hin).reaches⟩ hno
      · constructor
        · intro _ hreached
          obtain ⟨np', hnp', hin', hreach⟩ := hreached
          exact hnone np' hnp' hin' hreach
        · intro _
          exact ⟨np, hnp, hin, fun hconfirms => hnone np hnp hin hconfirms.reaches⟩
  · have hfailed : u ∈ (pushToNodes answers aliveNodes nodeMap userIDs).failedIDs :=
      mem_failed_pushToNodes.mpr (.inr ⟨hu, fun np hnp hin => honline ⟨np, hnp, hin⟩⟩)
    have hnot : u ∉ receivedNodes answers aliveNodes nodeMap := by
      intro hreceived
      obtain ⟨np, hnp, hin, _⟩ := mem_receivedNodes_iff_reaches.mp hreceived
      exact honline ⟨np, mem_of_mem_filter hnp, hin⟩
    simp [NodesAgree, honline, hfailed, hnot]

end

/-! ## Static gateways -/

/-- A user that some gateway has delivered to is confirmed by a gateway. -/
def StaticAgrees (conns : List String) (rpc : ℕ → RpcOutcome) (userIDs : List Int) (u : Int) :
    Prop :=
  (∃ i < conns.length, u ∈ (rpc i).received userIDs) →
    ∃ i < conns.length, (rpc i).Confirms userIDs u

theorem mem_failed_static_iff {conns : List String} {rpc : ℕ → RpcOutcome}
    (hhonest : ∀ i, (rpc i).Honest) (hnodup : userIDs.Nodup)
    (herr : (batchPushStatic conns rpc userIDs).err = none) {u : Int} (hu : u ∈ userIDs) :
    u ∈ (batchPushStatic conns rpc userIDs).failedIDs ↔
      ¬ ∃ i < conns.length, (rpc i).Confirms userIDs u := by
  have hspares := fun i => spares_iff_confirms (hhonest i) hnodup hu
  match conns with
  | [] => cases herr
  | [addr] =>
    simp only [← hspares, length_singleton, Nat.lt_one_iff, exists_eq_left]
    simp only [batchPushStatic, batchPushVia] at herr ⊢
    cases hreply : (rpc 0).reply userIDs with
    | error e =>
      rw [hreply] at herr
      cases herr
    | ok reply => simp [spares_of_reply hreply hu]
  | addr :: addr' :: rest =>
    simp only [batchPushStatic, batchPushVia, mem_filter, hu, true_and, Bool.not_eq_true',
      ← Bool.not_eq_true, pushToEach_success, Bool.false_eq_true, false_or, hspares]

theorem static_exact_iff {conns : List String} {rpc : ℕ → RpcOutcome}
    (hhonest : ∀ i, (rpc i).Honest) (hnodup : userIDs.Nodup)
    (herr : (batchPushStatic conns rpc userIDs).err = none) {u : Int} (hu : u ∈ userIDs) :
    (u ∈ (batchPushStatic conns rpc userIDs).failedIDs ↔
        u ∉ receivedStatic conns rpc userIDs) ↔ StaticAgrees conns rpc userIDs u := by
  rw [mem_failed_static_iff hhonest hnodup herr hu, mem_receivedStatic, not_iff_not, StaticAgrees]
  constructor
  · exact Iff.mpr
  · intro hagree
    refine ⟨?_, hagree⟩
    intro hconfirmed
    obtain ⟨i, hi, hconfirms⟩ := hconfirmed
    exact ⟨i, hi, hconfirms.2⟩

/-! ## The pusher -/

namespace GatewayPusher

theorem route_nodup {p : GatewayPusher} {answers : PushAnswers} {userIDs : List Int}
    {aliveNodes : List GatewayNodeInfo} {nodeMap : List (String × List Int)}
    (h : p.route answers userIDs = some (aliveNodes, nodeMap)) (hnodup : userIDs.Nodup) :
    ∀ np ∈ nodeMap, np.2.Nodup := by
  intro np hnp
  obtain ⟨test, htest⟩ := route_users h np hnp
  rw [htest]
  exact usersWhere_nodup _ hnodup

/-- The calls that are made for a user agree on whether a device has got the message. -/
def CallsAgree (p : GatewayPusher) (answers : PushAnswers) (userIDs : List Int) (u : Int) : Prop :=
  match p.route answers userIDs with
  | some (aliveNodes, nodeMap) => NodesAgree answers aliveNodes nodeMap u
  | none => StaticAgrees p.staticConns answers.staticRpc userIDs u

/-- A user of the request is failed exactly if no device of theirs has got the message. -/
def FailedExact (p : GatewayPusher) (answers : PushAnswers) (userIDs : List Int) : Prop :=
  ∀ u ∈ userIDs,
    (u ∈ (p.batchPushToUsers answers userIDs).failedIDs ↔ u ∉ p.received answers userIDs)

/-- A push that returns no error returns the users it has not reached exactly if, for each user,
the calls agree. -/
theorem failed_exact_iff {p : GatewayPusher} {answers : PushAnswers} (hhonest : answers.Honest)
    {userIDs : List Int} (hnodup : userIDs.Nodup)
    (herr : (p.batchPushToUsers answers userIDs).err = none) :
    p.FailedExact answers userIDs ↔ ∀ u ∈ userIDs, p.CallsAgree answers userIDs u := by
  apply forall₂_congr
  intro u hu
  have hne : userIDs ≠ [] := ne_nil_of_mem hu
  simp only [batchPushToUsers, if_neg hne] at herr
  simp only [batchPushToUsers, received, if_neg hne, CallsAgree]
  cases hroute : p.route answers userIDs with
  | none =>
    simp only [hroute] at herr
    exact static_exact_iff hhonest.static hnodup herr hu
  | some route =>
    obtain ⟨aliveNodes, nodeMap⟩ := route
    exact nodes_exact_iff hhonest (route_nodup hroute hnodup) hu

end GatewayPusher

/-! ## One user -/

def oneUserAnswers (aliveNodes : List GatewayNodeInfo) (nodeIDs : List String) : PushAnswers where
  aliveNodes := .ok aliveNodes
  sessions := .ok fun _ => nodeIDs

theorem oneUserAnswers_honest (aliveNodes : List GatewayNodeInfo) (nodeIDs : List String) :
    (oneUserAnswers aliveNodes nodeIDs).Honest :=
  ⟨fun _ => (honest_iff _).mpr rfl, fun _ => (honest_iff _).mpr rfl⟩

/-- The first user is online on a gateway, and all others are offline. -/
def firstOnline : PushAnswers where
  aliveNodes := .ok [⟨"gw1", "gw1:9000"⟩]
  sessions := .ok fun i => if i = 0 then ["gw1"] else []

theorem offline_user_failed :
    (batchPushToUsers ⟨[], true⟩ firstOnline [7, 8]).failedIDs = [8] ∧
      FailedExact ⟨[], true⟩ firstOnline [7, 8] := by
  have hhonest : firstOnline.Honest :=
    ⟨fun _ => (honest_iff _).mpr rfl, fun _ => (honest_iff _).mpr rfl⟩
  refine ⟨by decide, (failed_exact_iff hhonest (by decide) rfl).mpr ?_⟩
  have hnodes : resolveUserNodes (fun i => if i = 0 then ["gw1"] else []) [7, 8]
      [⟨"gw1", "gw1:9000"⟩] = [("gw1", [7])] := by decide
  have hpushes : nodePushes [⟨"gw1", "gw1:9000"⟩] [("gw1", [7])] = [("gw1", [7])] := by decide
  intro u _
  change NodesAgree firstOnline [⟨"gw1", "gw1:9000"⟩] (resolveUserNodes _ _ _) u
  rw [hnodes, NodesAgree, hpushes]
  rintro ⟨np, hnp, hu⟩
  refine ⟨⟨np, hnp, hu⟩, .inl ?_⟩
  rintro np hnp hu
  obtain rfl := mem_singleton.mp hnp
  obtain rfl := mem_singleton.mp hu
  exact ⟨rfl, rfl, by decide⟩

/-- A user whose only node has no address gets nothing and is not failed either. -/
theorem addressless_user_not_failed :
    (oneUserAnswers [⟨"gw1", ""⟩] ["gw1"]).Honest ∧
      (batchPushToUsers ⟨[], true⟩ (oneUserAnswers [⟨"gw1", ""⟩] ["gw1"]) [7]).err =
        none ∧
      ¬ FailedExact ⟨[], true⟩ (oneUserAnswers [⟨"gw1", ""⟩] ["gw1"]) [7] := by
  refine ⟨oneUserAnswers_honest _ _, rfl, ?_⟩
  intro h
  have hexact := h 7 (by decide)
  revert hexact
  decide

end NonokaIM
