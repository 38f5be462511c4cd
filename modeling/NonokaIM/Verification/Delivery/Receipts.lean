import NonokaIM.Model.Delivery

/-! The send receipts of a delivery. Each early return of the member lookup leaves out that of a
group message. -/

namespace NonokaIM

open List

/-- The receipts that a delivery submits, with their addressees. -/
def receiptsOf (actions : List DeliveryAction) : List (Int × SendReceipt) :=
  actions.filterMap fun
    | .receipt userID receipt => some (userID, receipt)
    | _ => none

@[simp] theorem receiptsOf_nil : receiptsOf [] = [] := rfl

@[simp] theorem receiptsOf_append (xs ys : List DeliveryAction) :
    receiptsOf (xs ++ ys) = receiptsOf xs ++ receiptsOf ys := filterMap_append

@[simp] theorem receiptsOf_push (call : ℕ) (userIDs : List Int) (msg : MessagePush)
    (actions : List DeliveryAction) :
    receiptsOf (.push call userIDs msg :: actions) = receiptsOf actions := rfl

variable (env : DeliveryEnv)

@[simp] theorem receiptsOf_handleFailedPushes (failed : List Int)
    (msg : MessagePush) : receiptsOf (handleFailedPushes env failed msg) = [] := by
  rw [receiptsOf, handleFailedPushes, filterMap_map]
  exact filterMap_eq_nil_iff.mpr fun _ _ => rfl

@[simp] theorem receiptsOf_pushToUsers (call : ℕ) (userIDs : List Int)
    (msg : MessagePush) : receiptsOf (pushToUsers env call userIDs msg) = [] := by
  unfold pushToUsers
  split
  · rfl
  split
  · rfl
  rw [receiptsOf_push]
  split
  · rfl
  · exact receiptsOf_handleFailedPushes _ _ _

def DeliveryEnv.TakesReceipts (env : DeliveryEnv) : Prop :=
  env.receiptBatcher = true ∨ env.pusher.isSome = true

def DeliveryTask.receipt (task : DeliveryTask) (timestamp : Int) : Int × SendReceipt :=
  (task.upstream.senderID,
    ⟨task.upstream.clientMsgID, task.msgID, task.upstream.topic, task.topicSeq, timestamp⟩)

/-- The delivery submits the receipt of its message and no other. -/
def OneReceipt (env : DeliveryEnv) (task : DeliveryTask) : Prop :=
  ∃ timestamp, receiptsOf (deliverMessage env task) = [task.receipt timestamp]

/-- The members of the group are not looked up, or the lookup finds some. -/
def MembersFound (env : DeliveryEnv) (upstream : UpstreamMessage) : Prop :=
  ∀ getGroupMembers, env.groupMembers = some getGroupMembers → env.pusher.isSome = true →
    ∃ groupID memberIDs, extractGroupID upstream.topic = .ok groupID ∧
      getGroupMembers groupID = .ok memberIDs ∧ memberIDs ≠ []

theorem receiptsOf_pushSendReceipt (task : DeliveryTask) :
    (∃ timestamp, receiptsOf (pushSendReceipt env task.upstream.senderID task.msgID
        task.upstream.topic task.topicSeq task.upstream.clientMsgID) = [task.receipt timestamp]) ↔
      env.TakesReceipts := by
  unfold pushSendReceipt DeliveryEnv.TakesReceipts
  rw [← Bool.or_eq_true]
  by_cases h : (env.receiptBatcher || env.pusher.isSome) = true
  · simp only [h, if_true, iff_true]
    exact ⟨env.now, rfl⟩
  · simp [h]

theorem receiptsOf_deliverP2POrSystemMessage (upstream : UpstreamMessage)
    (msgID : Int) (topicSeq : ℕ) (recipientIDs : List Int) :
    receiptsOf (deliverP2POrSystemMessage env upstream msgID topicSeq recipientIDs) =
      receiptsOf (pushSendReceipt env upstream.senderID msgID upstream.topic topicSeq
        upstream.clientMsgID) := by
  simp only [deliverP2POrSystemMessage, receiptsOf_append, receiptsOf_pushToUsers, nil_append]

theorem receiptsOf_deliverGroupMessage_of_found {env : DeliveryEnv} {upstream : UpstreamMessage}
    (h : MembersFound env upstream) (msgID : Int) (topicSeq : ℕ) :
    receiptsOf (deliverGroupMessage env upstream msgID topicSeq) =
      receiptsOf (pushSendReceipt env upstream.senderID msgID upstream.topic topicSeq
        upstream.clientMsgID) := by
  simp only [deliverGroupMessage, receiptsOf_append, receiptsOf_pushToUsers, nil_append]
  split
  · rename_i getGroupMembers push hmembers hpush
    obtain ⟨groupID, memberIDs, hgroup, hlookup, hne⟩ :=
      h getGroupMembers hmembers (by simp [hpush])
    simp only [hgroup, hlookup, if_neg hne, receiptsOf_append, receiptsOf_pushToUsers, nil_append]
  · rfl

theorem receiptsOf_deliverGroupMessage_of_not_found {env : DeliveryEnv}
    {upstream : UpstreamMessage} (h : ¬ MembersFound env upstream) (msgID : Int) (topicSeq : ℕ) :
    receiptsOf (deliverGroupMessage env upstream msgID topicSeq) = [] := by
  simp only [MembersFound, not_forall] at h
  obtain ⟨getGroupMembers, hmembers, hpusher, hnot⟩ := h
  obtain ⟨push, hpush⟩ := Option.isSome_iff_exists.mp hpusher
  simp only [deliverGroupMessage, hmembers, hpush, receiptsOf_append, receiptsOf_pushToUsers,
    nil_append]
  -- Whichever way the lookup fails, the function has returned before the receipt.
  cases hgroup : extractGroupID upstream.topic with
  | error e => rfl
  | ok groupID =>
    cases hlookup : getGroupMembers groupID with
    | error e => simp only [hlookup, receiptsOf_nil]
    | ok memberIDs =>
      by_cases hnil : memberIDs = []
      · simp only [hlookup, hnil, if_true, receiptsOf_nil]
      · exact absurd ⟨groupID, memberIDs, hgroup, hlookup, hnil⟩ hnot

/-- A delivery submits exactly one receipt, with the fields of its message, exactly when a
service takes receipts and, for a group message, the member lookup does not come back empty. -/
theorem one_receipt_iff (env : DeliveryEnv) (task : DeliveryTask) :
    OneReceipt env task ↔
      env.TakesReceipts ∧ (task.isGroup = true → MembersFound env task.upstream) := by
  rw [OneReceipt, deliverMessage, ← receiptsOf_pushSendReceipt env task]
  cases hgroup : task.isGroup with
  | false =>
    simp only [Bool.false_eq_true, if_false, receiptsOf_deliverP2POrSystemMessage, false_implies,
      and_true]
  | true =>
    simp only [if_true, forall_const]
    by_cases hfound : MembersFound env task.upstream
    · simp only [receiptsOf_deliverGroupMessage_of_found hfound, hfound, and_true]
    simp only [receiptsOf_deliverGroupMessage_of_not_found hfound, hfound, and_false, iff_false,
      not_exists]
    intro timestamp heq
    cases heq

def unknownMembers : DeliveryEnv where
  pusher := some fun _ _ _ => {}
  groupMembers := some fun _ => .error "redis: connection refused"

/-- Its sender gets no receipt. -/
theorem failed_lookup_drops_receipt :
    ¬ OneReceipt unknownMembers
      ⟨{ senderID := 1, topic := "grp_1", clientMsgID := "a" }, 7, 1, [], true⟩ := by
  have hnone : receiptsOf (deliverMessage unknownMembers
      ⟨{ senderID := 1, topic := "grp_1", clientMsgID := "a" }, 7, 1, [], true⟩) = [] := by
    decide
  rintro ⟨timestamp, heq⟩
  rw [hnone] at heq
  cases heq

end NonokaIM
