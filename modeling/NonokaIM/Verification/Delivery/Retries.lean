import NonokaIM.Model.Pusher

/-! Whether a recipient that a push has not reached is retried: the worker looks at the failed users
only without an error. -/

namespace NonokaIM

open List RpcOutcome PushReply Except

/-! ## One call to a gateway -/

theorem mem_usersWhere {p : ℕ → Bool} {userIDs : List Int} {u : Int} :
    u ∈ usersWhere p userIDs ↔ ∃ i, userIDs[i]? = some u ∧ p i = true := by
  simp [usersWhere, mem_zipIdx_iff_getElem?]

theorem usersWhere_subset (p : ℕ → Bool) (userIDs : List Int) : usersWhere p userIDs ⊆ userIDs := by
  intro u hu
  obtain ⟨i, hi, _⟩ := mem_usersWhere.mp hu
  exact mem_of_getElem? hi

namespace RpcOutcome

def isUnencoded : RpcOutcome → Bool
  | .unencoded => true
  | _ => false

def isReplied : RpcOutcome → Bool
  | .replied _ => true
  | _ => false

theorem received_subset (o : RpcOutcome) (userIDs : List Int) : o.received userIDs ⊆ userIDs := by
  cases o with
  | replied devices | failed devices text =>
    rw [received]
    exact usersWhere_subset _ _
  | unencoded => exact nil_subset _

variable {o : RpcOutcome} {userIDs : List Int}

theorem failed_subset {failed : List Int} {delivered : ℕ}
    (h : o.reply userIDs = .ok (delivered, failed)) : failed ⊆ userIDs := by
  cases o with
  | replied devices =>
    simp only [reply, ok.injEq, Prod.mk.injEq] at h
    rw [← h.2]
    exact usersWhere_subset _ _
  | unencoded =>
    simp only [reply, ok.injEq, Prod.mk.injEq] at h
    rw [← h.2]
    exact nil_subset _
  | failed devices text => cases h

theorem mem_failed_iff {failed : List Int} {delivered : ℕ} {u : Int}
    (h : o.reply userIDs = .ok (delivered, failed)) (hu : u ∈ userIDs)
    (hnot : u ∉ o.received userIDs) : u ∈ failed ↔ o.isUnencoded = false := by
  cases o with
  | replied devices =>
    simp only [reply, ok.injEq, Prod.mk.injEq] at h
    simp only [isUnencoded, iff_true]
    obtain ⟨i, hi⟩ := mem_iff_getElem?.mp hu
    rw [← h.2, mem_usersWhere]
    refine ⟨i, hi, ?_⟩
    by_contra hpos
    apply hnot
    rw [received, mem_usersWhere]
    exact ⟨i, hi, by simpa [Nat.pos_iff_ne_zero] using hpos⟩
  | unencoded =>
    simp only [reply, ok.injEq, Prod.mk.injEq] at h
    simp [← h.2, isUnencoded]
  | failed devices text => cases h

def Spares (o : RpcOutcome) (userIDs : List Int) (u : Int) : Prop :=
  ∃ delivered failed, o.reply userIDs = .ok (delivered, failed) ∧ u ∈ userIDs ∧ u ∉ failed

theorem spares_iff {u : Int} (hu : u ∈ userIDs) (hnot : u ∉ o.received userIDs) :
    o.Spares userIDs u ↔ o.isUnencoded = true := by
  constructor
  · rintro ⟨delivered, failed, hreply, _, hspared⟩
    rw [mem_failed_iff hreply hu hnot] at hspared
    simpa using hspared
  · intro h
    cases o with
    | unencoded => exact ⟨0, [], rfl, hu, not_mem_nil⟩
    | replied devices | failed devices text => cases h

end RpcOutcome

/-! ## Static gateways -/

/-- A static push gives up users it has not reached: no gateway, an error of the only one, or a
packet that could not be encoded. -/
def DropsStatic (conns : List String) (rpc : ℕ → RpcOutcome) : Prop :=
  match conns with
  | [] => True
  | [_] => (rpc 0).isReplied = false
  | conns => ∃ i < conns.length, (rpc i).isUnencoded = true

theorem pushToEach_success (userIDs : List Int) (conns : List String) (rpc : ℕ → RpcOutcome)
    (acc : ℕ × (Int → Bool)) (u : Int) :
    (pushToEach userIDs conns rpc acc).2 u = true ↔
      acc.2 u = true ∨ ∃ i < conns.length, (rpc i).Spares userIDs u := by
  induction conns generalizing rpc acc with
  | nil => simp [pushToEach]
  | cons addr conns ih =>
    have hsplit : (∃ i < (addr :: conns).length, (rpc i).Spares userIDs u) ↔
        (rpc 0).Spares userIDs u ∨ ∃ i < conns.length, (rpc (i + 1)).Spares userIDs u := by
      rw [length_cons, Nat.exists_lt_succ_left]
    rw [pushToEach, ih, hsplit, ← or_assoc]
    apply or_congr_left
    cases hreply : (rpc 0).reply userIDs with
    | error e => simp [Spares, hreply]
    | ok reply =>
      obtain ⟨delivered, failed⟩ := reply
      simp [Spares, hreply]

variable {rpc : ℕ → RpcOutcome} {userIDs : List Int} {u : Int} {answers : PushAnswers}
variable {aliveNodes : List GatewayNodeInfo} {nodeMap : List (String × List Int)}

theorem mem_receivedStatic {conns : List String} :
    u ∈ receivedStatic conns rpc userIDs ↔ ∃ i < conns.length, u ∈ (rpc i).received userIDs := by
  simp [receivedStatic]

/-- The push reports the user as failed, in a way that the worker looks at. -/
def PushReply.Reports (reply : PushReply) (u : Int) : Prop :=
  reply.err = none ∧ u ∈ reply.failedIDs

theorem reports_static_one_iff {addr : String} (hu : u ∈ userIDs)
    (hnot : u ∉ (rpc 0).received userIDs) :
    (batchPushStatic [addr] rpc userIDs).Reports u ↔ (rpc 0).isReplied = true := by
  cases ho : rpc 0 with
  | replied devices =>
    rw [ho] at hnot
    have hreply : (replied devices).reply userIDs = .ok (_, _) := rfl
    have hfailed := (mem_failed_iff hreply hu hnot).mpr rfl
    simpa [batchPushStatic, batchPushVia, ho, RpcOutcome.reply, Reports, isReplied] using hfailed
  | unencoded | failed devices text =>
    simp [batchPushStatic, batchPushVia, ho, RpcOutcome.reply, Reports, isReplied]

theorem reports_static_iff {conns : List String} (hu : u ∈ userIDs)
    (hnot : u ∉ receivedStatic conns rpc userIDs) :
    (batchPushStatic conns rpc userIDs).Reports u ↔ ¬ DropsStatic conns rpc := by
  simp only [mem_receivedStatic, not_exists, not_and] at hnot
  match conns with
  | [] => simp [batchPushStatic, batchPushVia, Reports, DropsStatic]
  | [addr] =>
    rw [reports_static_one_iff hu (hnot 0 (by simp))]
    simp [DropsStatic]
  | addr :: addr' :: rest =>
    simp only [batchPushStatic, batchPushVia, Reports, true_and, mem_filter, hu,
      Bool.not_eq_true', ← Bool.not_eq_true, pushToEach_success, Bool.false_eq_true, false_or,
      DropsStatic]
    apply not_congr
    apply exists_congr
    intro i
    apply and_congr_right
    intro hi
    exact spares_iff hu (hnot i hi)

/-! ## Routing -/

/-- A routed push gives up an online user: every node with a session of theirs has no address, or
could not encode the packet. -/
def DropsNodes (answers : PushAnswers) (aliveNodes : List GatewayNodeInfo)
    (nodeMap : List (String × List Int)) (u : Int) : Prop :=
  (∃ np ∈ nodeMap, u ∈ np.2) ∧ ∀ np ∈ nodeMap, u ∈ np.2 →
    nodeAddr aliveNodes np.1 = "" ∨
      (answers.dials (nodeAddr aliveNodes np.1) = true ∧ (answers.nodeRpc np.1).isUnencoded = true)

theorem mem_receivedNodes :
    u ∈ receivedNodes answers aliveNodes nodeMap ↔
      ∃ np ∈ nodeMap, nodeAddr aliveNodes np.1 ≠ "" ∧
        answers.dials (nodeAddr aliveNodes np.1) = true ∧
          u ∈ (answers.nodeRpc np.1).received np.2 := by
  simp only [receivedNodes, nodePushes, mem_flatMap, mem_filter, decide_eq_true_eq]
  apply exists_congr
  intro np
  by_cases hdial : answers.dials (nodeAddr aliveNodes np.1) = true <;> simp [hdial, and_assoc]

theorem mem_pushToNode_iff {np : String × List Int} (hu : u ∈ np.2)
    (hnot : answers.dials (nodeAddr aliveNodes np.1) = true →
      u ∉ (answers.nodeRpc np.1).received np.2) :
    u ∈ (pushToNode answers aliveNodes np).2 ↔
      ¬ (answers.dials (nodeAddr aliveNodes np.1) = true ∧
        (answers.nodeRpc np.1).isUnencoded = true) := by
  unfold pushToNode
  by_cases hdial : answers.dials (nodeAddr aliveNodes np.1) = true
  · rw [if_pos hdial]
    cases hreply : (answers.nodeRpc np.1).reply np.2 with
    | error e =>
      have hencoded : (answers.nodeRpc np.1).isUnencoded = false := by
        cases ho : answers.nodeRpc np.1 with
        | unencoded =>
          rw [ho] at hreply
          cases hreply
        | replied devices | failed devices text => rfl
      simp [hu, hencoded]
    | ok reply =>
      rw [mem_failed_iff hreply hu (hnot hdial)]
      simp [hdial]
  · simp [hdial, hu]

theorem pushToNode_subset (answers : PushAnswers) (aliveNodes : List GatewayNodeInfo)
    (np : String × List Int) : (pushToNode answers aliveNodes np).2 ⊆ np.2 := by
  unfold pushToNode
  split
  · split
    · exact Subset.refl _
    · rename_i reply hreply
      exact failed_subset hreply
  · exact Subset.refl _

theorem mem_failed_pushToNodes :
    u ∈ (pushToNodes answers aliveNodes nodeMap userIDs).failedIDs ↔
      (∃ np ∈ nodeMap, nodeAddr aliveNodes np.1 ≠ "" ∧
        u ∈ (pushToNode answers aliveNodes np).2) ∨
      (u ∈ userIDs ∧ ∀ np ∈ nodeMap, u ∉ np.2) := by
  simp only [pushToNodes, nodePushes, mem_append, flatMap_map, mem_flatMap,
    mem_filter, decide_eq_true_eq, and_assoc, Bool.not_eq_true', any_eq_false]

theorem reports_nodes_iff (hu : u ∈ userIDs) (hnot : u ∉ receivedNodes answers aliveNodes nodeMap) :
    (pushToNodes answers aliveNodes nodeMap userIDs).Reports u ↔
      ¬ DropsNodes answers aliveNodes nodeMap u := by
  have hnode : ∀ np ∈ nodeMap, u ∈ np.2 → nodeAddr aliveNodes np.1 ≠ "" →
      (u ∈ (pushToNode answers aliveNodes np).2 ↔
        ¬ (answers.dials (nodeAddr aliveNodes np.1) = true ∧
          (answers.nodeRpc np.1).isUnencoded = true)) := by
    intro np hnp hin haddr
    apply mem_pushToNode_iff hin
    intro hdial hreceived
    exact hnot (mem_receivedNodes.mpr ⟨np, hnp, haddr, hdial, hreceived⟩)
  have herr : (pushToNodes answers aliveNodes nodeMap userIDs).err = none := rfl
  rw [Reports, herr, mem_failed_pushToNodes]
  simp only [true_and, hu]
  by_cases honline : ∃ np ∈ nodeMap, u ∈ np.2
  · have hno : ¬ ∀ np ∈ nodeMap, u ∉ np.2 := by
      intro h
      obtain ⟨np, hnp, hin⟩ := honline
      exact h np hnp hin
    simp only [hno, or_false, DropsNodes, honline, true_and, not_forall]
    constructor
    · rintro ⟨np, hnp, haddr, hfailed⟩
      have hin := pushToNode_subset _ _ _ hfailed
      refine ⟨np, hnp, hin, ?_⟩
      rintro (hempty | hbad)
      · exact haddr hempty
      · exact (hnode np hnp hin haddr).mp hfailed hbad
    · rintro ⟨np, hnp, hin, hkept⟩
      rw [not_or] at hkept
      exact ⟨np, hnp, hkept.1, (hnode np hnp hin hkept.1).mpr hkept.2⟩
  · have hoffline : ∀ np ∈ nodeMap, u ∉ np.2 := fun np hnp hin => honline ⟨np, hnp, hin⟩
    simp only [DropsNodes, honline, false_and, not_false_eq_true, iff_true]
    exact .inr hoffline

/-! ## The pusher -/

namespace GatewayPusher

/-- The push gives the user up if it has not reached them. -/
def Drops (p : GatewayPusher) (answers : PushAnswers) (userIDs : List Int) (u : Int) : Prop :=
  match p.route answers userIDs with
  | some (aliveNodes, nodeMap) => DropsNodes answers aliveNodes nodeMap u
  | none => DropsStatic p.staticConns answers.staticRpc

variable {p : GatewayPusher} {answers : PushAnswers} {userIDs : List Int}

theorem reports_iff {u : Int} (hu : u ∈ userIDs) (hnot : u ∉ p.received answers userIDs) :
    (p.batchPushToUsers answers userIDs).Reports u ↔ ¬ p.Drops answers userIDs u := by
  have hne : userIDs ≠ [] := ne_nil_of_mem hu
  simp only [received, if_neg hne] at hnot
  simp only [batchPushToUsers, if_neg hne, Drops]
  cases hroute : p.route answers userIDs with
  | none =>
    simp only [hroute] at hnot
    exact reports_static_iff hu hnot
  | some route =>
    obtain ⟨aliveNodes, nodeMap⟩ := route
    simp only [hroute] at hnot
    exact reports_nodes_iff hu hnot

variable {nodeMap : List (String × List Int)} {aliveNodes : List GatewayNodeInfo}

theorem route_users (h : p.route answers userIDs = some (aliveNodes, nodeMap)) :
    ∀ np ∈ nodeMap, ∃ test, np.2 = usersWhere test userIDs := by
  unfold route at h
  split at h
  · split at h
    · simp only [Option.some.injEq, Prod.mk.injEq] at h
      rw [← h.2]
      intro np hnp
      simp only [resolveUserNodes, mem_filterMap] at hnp
      obtain ⟨nodeID, _, hsome⟩ := hnp
      split at hsome
      · cases hsome
      · rw [← Option.some.inj hsome]
        dsimp only
        exact ⟨_, rfl⟩
    · cases h
  · cases h

theorem route_subset (h : p.route answers userIDs = some (aliveNodes, nodeMap)) :
    ∀ np ∈ nodeMap, np.2 ⊆ userIDs := by
  intro np hnp
  obtain ⟨test, htest⟩ := route_users h np hnp
  rw [htest]
  exact usersWhere_subset _ _

theorem received_subset (p : GatewayPusher) (answers : PushAnswers) (userIDs : List Int) :
    p.received answers userIDs ⊆ userIDs := by
  intro u hu
  unfold received at hu
  split at hu
  · cases hu
  split at hu
  · rename_i aliveNodes nodeMap hroute
    obtain ⟨np, hnp, _, _, hin⟩ := mem_receivedNodes.mp hu
    exact route_subset hroute np hnp (RpcOutcome.received_subset _ _ hin)
  · obtain ⟨i, _, hin⟩ := mem_receivedStatic.mp hu
    exact RpcOutcome.received_subset _ _ hin

theorem failedIDs_static_subset (conns : List String) (rpc : ℕ → RpcOutcome) (userIDs : List Int) :
    (batchPushStatic conns rpc userIDs).failedIDs ⊆ userIDs := by
  match conns with
  | [] => exact Subset.refl _
  | [addr] =>
    simp only [batchPushStatic, batchPushVia]
    split
    · exact Subset.refl _
    · rename_i delivered failed hreply
      exact failed_subset hreply
  | addr :: addr' :: rest => exact filter_subset_self _

theorem failedIDs_subset (p : GatewayPusher) (answers : PushAnswers) (userIDs : List Int) :
    (p.batchPushToUsers answers userIDs).failedIDs ⊆ userIDs := by
  unfold batchPushToUsers
  split
  · exact nil_subset _
  split
  · rename_i aliveNodes nodeMap hroute
    intro u hu
    rcases mem_failed_pushToNodes.mp hu with ⟨np, hnp, _, hin⟩ | hoffline
    · exact route_subset hroute np hnp (pushToNode_subset _ _ _ hin)
    · exact hoffline.1
  · exact failedIDs_static_subset _ _ _

end GatewayPusher

section

variable (p : GatewayPusher) (answers : ℕ → PushAnswers)
  (groupMembers : Option (String → Except String (List Int)))

def retryingEnv (now : Int) : DeliveryEnv where
  pusher := some fun call userIDs _ => p.batchPushToUsers (answers call) userIDs
  groupMembers := groupMembers
  retryQueue := some fun _ => true
  now := now

/-- The lookup of the group's members answers with `found`. -/
def FindsMembers (upstream : UpstreamMessage) (found : List Int) : Prop :=
  ∃ getGroupMembers groupID, groupMembers = some getGroupMembers ∧
    extractGroupID upstream.topic = .ok groupID ∧ getGroupMembers groupID = .ok found

/-- Whom the delivery knows as members of the group: nobody without an answer of the lookup. -/
def knownMembers (upstream : UpstreamMessage) : List Int :=
  match groupMembers, extractGroupID upstream.topic with
  | some getGroupMembers, .ok groupID =>
    match getGroupMembers groupID with
    | .ok memberIDs => memberIDs
    | .error _ => []
  | _, _ => []

/-- Those who should get the message: the recipients of its save, or the mentioned users and the
members of the group. -/
def intendedRecipients (members : List Int) (task : DeliveryTask) : List Int :=
  if task.isGroup then task.upstream.mentionedUserIDs ++ members else task.recipientIDs

def receivedUsers (actions : List DeliveryAction) : List Int :=
  actions.flatMap fun
    | .push call userIDs _ => p.received (answers call) userIDs
    | _ => []

/-- Every intended recipient other than the sender has received the message or has an item in the
retry queue. -/
def UndeliveredRetried (members : List Int) (now : Int) (task : DeliveryTask) : Prop :=
  ∀ u ∈ intendedRecipients members task, u ≠ task.upstream.senderID →
    u ∈ receivedUsers p answers (deliverMessage (retryingEnv p answers groupMembers now) task) ∨
    .retry (scheduleRetry now u (buildMessagePush task.msgID task.topicSeq task.upstream)) ∈
      deliverMessage (retryingEnv p answers groupMembers now) task

/-- The user has received the message or has an item in the retry queue. -/
def Reached (now : Int) (task : DeliveryTask) (u : Int) : Prop :=
  u ∈ receivedUsers p answers (deliverMessage (retryingEnv p answers groupMembers now) task) ∨
  .retry (scheduleRetry now u (buildMessagePush task.msgID task.topicSeq task.upstream)) ∈
    deliverMessage (retryingEnv p answers groupMembers now) task

def firstTargets (task : DeliveryTask) : List Int :=
  if task.isGroup then task.upstream.mentionedUserIDs
  else task.recipientIDs.filter (· ≠ task.upstream.senderID)

def secondTargets (task : DeliveryTask) : List Int :=
  if task.isGroup then
    groupRecipients task.upstream (knownMembers groupMembers task.upstream)
  else []

/-- The push has reached every user but the sender, or has not given them up. -/
def KeepsAll (call : ℕ) (userIDs : List Int) (senderID : Int) : Prop :=
  ∀ u ∈ userIDs, u ≠ senderID →
    u ∈ p.received (answers call) userIDs ∨ ¬ p.Drops (answers call) userIDs u

/-- The lookup finds the member, and the push to those whom it finds has reached the member or has
not given them up. -/
def KeepsMember (upstream : UpstreamMessage) (u : Int) : Prop :=
  ∃ found, FindsMembers groupMembers upstream found ∧ u ∈ found ∧
    (u ∈ p.received (answers 1) (groupRecipients upstream found) ∨
      ¬ p.Drops (answers 1) (groupRecipients upstream found) u)

end

section

variable {p : GatewayPusher} {answers : ℕ → PushAnswers}
  {groupMembers : Option (String → Except String (List Int))} {now : Int}

theorem pushToUsers_nil (env : DeliveryEnv) (call : ℕ) (msg : MessagePush) :
    pushToUsers env call [] msg = [] := by
  unfold pushToUsers
  split <;> simp

theorem deliverMessage_eq (env : DeliveryEnv) {push : ℕ → List Int → MessagePush → PushReply}
    (hpush : env.pusher = some push) (task : DeliveryTask) :
    ∃ receipts, (∀ a ∈ receipts, ∃ userID receipt, a = DeliveryAction.receipt userID receipt) ∧
      deliverMessage env task =
        pushToUsers env 0 (firstTargets task)
            (buildMessagePush task.msgID task.topicSeq task.upstream) ++
          (pushToUsers env 1 (secondTargets env.groupMembers task)
            (buildMessagePush task.msgID task.topicSeq task.upstream) ++ receipts) := by
  have hreceipt : ∀ a ∈ pushSendReceipt env task.upstream.senderID task.msgID task.upstream.topic
      task.topicSeq task.upstream.clientMsgID,
      ∃ userID receipt, a = DeliveryAction.receipt userID receipt := by
    intro a ha
    unfold pushSendReceipt at ha
    split at ha
    · exact ⟨_, _, mem_singleton.mp ha⟩
    · cases ha
  have hnone : ∀ a ∈ ([] : List DeliveryAction), ∃ userID receipt,
      a = DeliveryAction.receipt userID receipt := by
    intro a ha
    cases ha
  unfold deliverMessage firstTargets secondTargets
  cases hgroup : task.isGroup with
  | false =>
    refine ⟨_, hreceipt, ?_⟩
    simp only [deliverP2POrSystemMessage, Bool.false_eq_true, if_false, pushToUsers_nil, nil_append]
  | true =>
    simp only [if_true, deliverGroupMessage, knownMembers]
    cases env.groupMembers with
    | none =>
      refine ⟨_, hreceipt, ?_⟩
      simp [groupRecipients, pushToUsers_nil]
    | some getGroupMembers =>
      simp only [hpush]
      -- After an early return there is neither a second push nor a receipt.
      cases hid : extractGroupID task.upstream.topic with
      | error e =>
        refine ⟨[], hnone, ?_⟩
        simp [groupRecipients, pushToUsers_nil]
      | ok groupID =>
        cases hlookup : getGroupMembers groupID with
        | error e =>
          refine ⟨[], hnone, ?_⟩
          simp [hlookup, groupRecipients, pushToUsers_nil]
        | ok memberIDs =>
          by_cases hnil : memberIDs = []
          · refine ⟨[], hnone, ?_⟩
            simp [hlookup, hnil, groupRecipients, pushToUsers_nil]
          · refine ⟨_, hreceipt, ?_⟩
            simp [hlookup, hnil]

theorem receivedUsers_append (xs ys : List DeliveryAction) :
    receivedUsers p answers (xs ++ ys) = receivedUsers p answers xs ++ receivedUsers p answers ys :=
  flatMap_append

theorem receivedUsers_handleFailedPushes (env : DeliveryEnv) (failed : List Int)
    (msg : MessagePush) : receivedUsers p answers (handleFailedPushes env failed msg) = [] := by
  rw [receivedUsers, handleFailedPushes, flatMap_map]
  exact flatMap_eq_nil_iff.mpr fun _ _ => rfl

theorem receivedUsers_receipts {receipts : List DeliveryAction}
    (h : ∀ a ∈ receipts, ∃ userID receipt, a = DeliveryAction.receipt userID receipt) :
    receivedUsers p answers receipts = [] := by
  apply flatMap_eq_nil_iff.mpr
  intro a ha
  obtain ⟨userID, receipt, rfl⟩ := h a ha
  rfl

theorem receivedUsers_pushToUsers (call : ℕ) (userIDs : List Int) (msg : MessagePush) :
    receivedUsers p answers
        (pushToUsers (retryingEnv p answers groupMembers now) call userIDs msg) =
      p.received (answers call) userIDs := by
  by_cases hnil : userIDs = []
  · simp [hnil, pushToUsers_nil, receivedUsers, GatewayPusher.received]
  simp only [pushToUsers, retryingEnv, if_neg hnil]
  have hrest : ∀ actions, receivedUsers p answers (.push call userIDs msg :: actions) =
      p.received (answers call) userIDs ++ receivedUsers p answers actions :=
    fun _ => flatMap_cons
  rw [hrest]
  split
  · simp [receivedUsers]
  · rw [receivedUsers_handleFailedPushes, append_nil]

variable {userIDs : List Int} {u : Int} {task : DeliveryTask}

theorem retry_mem_pushToUsers {call : ℕ} {msg : MessagePush} :
    .retry (scheduleRetry now u msg) ∈
        pushToUsers (retryingEnv p answers groupMembers now) call userIDs msg ↔
      (p.batchPushToUsers (answers call) userIDs).Reports u := by
  have hinj : ∀ v, scheduleRetry now v msg = scheduleRetry now u msg ↔ v = u := by
    intro v
    constructor
    · intro h
      exact congrArg RetryItem.userID h
    · rintro rfl
      rfl
  by_cases hnil : userIDs = []
  · simp [hnil, pushToUsers_nil, GatewayPusher.batchPushToUsers, Reports]
  simp only [pushToUsers, retryingEnv, if_neg hnil, Reports]
  cases herr : (p.batchPushToUsers (answers call) userIDs).err with
  | some e => simp
  | none =>
    simp [handleFailedPushes, DeliveryEnv.enqueues, hinj]

theorem findsMembers_iff {upstream : UpstreamMessage} {found : List Int} (hu : u ∈ found) :
    FindsMembers groupMembers upstream found ↔ knownMembers groupMembers upstream = found := by
  unfold FindsMembers knownMembers
  cases groupMembers with
  | none => simp [(ne_nil_of_mem hu).symm]
  | some getGroupMembers =>
    cases hid : extractGroupID upstream.topic with
    | error e => simp [(ne_nil_of_mem hu).symm]
    | ok groupID =>
      cases hlookup : getGroupMembers groupID with
      | error e => simp [hlookup, (ne_nil_of_mem hu).symm]
      | ok memberIDs => simp [hlookup]

theorem keepsMember_iff {upstream : UpstreamMessage} :
    KeepsMember p answers groupMembers upstream u ↔ u ∈ knownMembers groupMembers upstream ∧
      (u ∈ p.received (answers 1) (groupRecipients upstream (knownMembers groupMembers upstream)) ∨
        ¬ p.Drops (answers 1)
          (groupRecipients upstream (knownMembers groupMembers upstream)) u) := by
  constructor
  · rintro ⟨found, hfinds, hu, hkept⟩
    obtain rfl := (findsMembers_iff hu).mp hfinds
    exact ⟨hu, hkept⟩
  · rintro ⟨hu, hkept⟩
    exact ⟨_, (findsMembers_iff hu).mpr rfl, hu, hkept⟩

theorem targets_disjoint (h1 : u ∈ firstTargets task) (h2 : u ∈ secondTargets groupMembers task) :
    False := by
  unfold firstTargets at h1
  unfold secondTargets at h2
  cases hgroup : task.isGroup with
  | false =>
    rw [hgroup] at h2
    cases h2
  | true =>
    simp only [hgroup, if_true, groupRecipients, mem_filter, decide_eq_true_eq] at h1 h2
    exact h2.2.2 h1

theorem reached_iff :
    Reached p answers groupMembers now task u ↔
      (u ∈ p.received (answers 0) (firstTargets task) ∨
        (p.batchPushToUsers (answers 0) (firstTargets task)).Reports u) ∨
      (u ∈ p.received (answers 1) (secondTargets groupMembers task) ∨
        (p.batchPushToUsers (answers 1) (secondTargets groupMembers task)).Reports u) := by
  obtain ⟨receipts, hreceipts, hdeliver⟩ :=
    deliverMessage_eq (retryingEnv p answers groupMembers now) rfl task
  have hretry : ∀ item, DeliveryAction.retry item ∉ receipts := by
    intro item hmem
    obtain ⟨_, _, heq⟩ := hreceipts _ hmem
    cases heq
  rw [Reached, hdeliver]
  simp only [receivedUsers_append, receivedUsers_pushToUsers, receivedUsers_receipts hreceipts,
    append_nil, mem_append, retry_mem_pushToUsers, hretry, or_false]
  exact or_or_or_comm

theorem kept_iff {call : ℕ} (hu : u ∈ userIDs) :
    (u ∈ p.received (answers call) userIDs ∨
        (p.batchPushToUsers (answers call) userIDs).Reports u) ↔
      (u ∈ p.received (answers call) userIDs ∨ ¬ p.Drops (answers call) userIDs u) := by
  by_cases hreceived : u ∈ p.received (answers call) userIDs
  · simp [hreceived]
  · simp [hreceived, GatewayPusher.reports_iff hu hreceived]

theorem not_reached_of_not_mem {call : ℕ} (hu : u ∉ userIDs) :
    ¬ (u ∈ p.received (answers call) userIDs ∨
        (p.batchPushToUsers (answers call) userIDs).Reports u) := by
  rintro (hreceived | hreported)
  · exact hu (p.received_subset _ _ hreceived)
  · exact hu (p.failedIDs_subset _ _ hreported.2)

theorem reached_first_iff (hu : u ∈ firstTargets task) :
    Reached p answers groupMembers now task u ↔
      u ∈ p.received (answers 0) (firstTargets task) ∨
        ¬ p.Drops (answers 0) (firstTargets task) u := by
  have hsecond : u ∉ secondTargets groupMembers task := fun h => targets_disjoint hu h
  rw [reached_iff, or_iff_left (not_reached_of_not_mem hsecond), kept_iff hu]

theorem reached_member_iff (hgroup : task.isGroup = true) (hsender : u ≠ task.upstream.senderID)
    (hmention : u ∉ task.upstream.mentionedUserIDs) :
    Reached p answers groupMembers now task u ↔
      KeepsMember p answers groupMembers task.upstream u := by
  have hfirst : u ∉ firstTargets task := by
    rw [firstTargets, if_pos hgroup]
    exact hmention
  have htargets : secondTargets groupMembers task =
      groupRecipients task.upstream (knownMembers groupMembers task.upstream) := if_pos hgroup
  have hmem : u ∈ secondTargets groupMembers task ↔
      u ∈ knownMembers groupMembers task.upstream := by
    rw [htargets, groupRecipients, mem_filter]
    simp [hsender, hmention]
  rw [reached_iff, or_iff_right (not_reached_of_not_mem hfirst), keepsMember_iff, ← hmem,
    ← htargets]
  constructor
  · intro hreached
    have hu : u ∈ secondTargets groupMembers task := by
      by_contra hu
      exact not_reached_of_not_mem hu hreached
    exact ⟨hu, (kept_iff hu).mp hreached⟩
  · rintro ⟨hu, hkept⟩
    exact (kept_iff hu).mpr hkept

end

/-- Every intended recipient of a delivery has received the message or is retried exactly when the
first push gives no target up that it has not reached, and in a group the lookup finds every other
member and the second push gives none of them up that it has not reached. -/
theorem undelivered_retried_iff (p : GatewayPusher) (answers : ℕ → PushAnswers)
    (groupMembers : Option (String → Except String (List Int))) (members : List Int) (now : Int)
    (task : DeliveryTask) :
    UndeliveredRetried p answers groupMembers members now task ↔
      KeepsAll p answers 0 (firstTargets task) task.upstream.senderID ∧
        (task.isGroup = true → ∀ u ∈ members, u ≠ task.upstream.senderID →
          u ∉ task.upstream.mentionedUserIDs →
            KeepsMember p answers groupMembers task.upstream u) := by
  have hintended : ∀ u, u ≠ task.upstream.senderID →
      (u ∈ intendedRecipients members task ↔
        u ∈ firstTargets task ∨ (task.isGroup = true ∧ u ∈ members)) := by
    intro u hsender
    unfold intendedRecipients firstTargets
    cases task.isGroup <;> simp [hsender]
  constructor
  · intro h
    refine ⟨fun u hu hsender => ?_, fun hgroup u hu hsender hmention => ?_⟩
    · exact (reached_first_iff hu).mp (h u ((hintended u hsender).mpr (.inl hu)) hsender)
    · exact (reached_member_iff hgroup hsender hmention).mp
        (h u ((hintended u hsender).mpr (.inr ⟨hgroup, hu⟩)) hsender)
  · rintro ⟨hfirst, hmembers⟩ u hu hsender
    by_cases htarget : u ∈ firstTargets task
    · exact (reached_first_iff htarget).mpr (hfirst u htarget hsender)
    obtain ⟨hgroup, hmember⟩ := ((hintended u hsender).mp hu).resolve_left htarget
    have hmention : u ∉ task.upstream.mentionedUserIDs := by
      rwa [firstTargets, if_pos hgroup] at htarget
    exact (reached_member_iff hgroup hsender hmention).mpr
      (hmembers hgroup u hmember hsender hmention)

/-- With one gateway, a call that fails before it reaches anyone leaves the recipient of a P2P
message without the message and without a retry. -/
theorem failed_call_not_retried :
    ¬ UndeliveredRetried ⟨["gateway:9000"], false⟩
      (fun _ => { staticRpc := fun _ => .failed (fun _ => 0) "unavailable" }) none [] 0
      ⟨{ senderID := 1, topic := "p2p_1_2" }, 7, 1, [2, 1], false⟩ := by
  intro h
  have hreached := h 2 (by decide) (by decide)
  revert hreached
  decide

end NonokaIM
