import NonokaIM.Model.Delivery

/-! Where deliveries and retries carry the content of a message. -/

namespace NonokaIM

open List DeliveryTask

variable {topic : String} {topicSeq : ℕ}

def MessagePush.Carries (topic : String) (topicSeq : ℕ) (msg : MessagePush) : Prop :=
  msg.topic = topic ∧ msg.topicSeq = topicSeq ∧ msg.content ≠ []

/-- An item of the message with some content that will be pushed again. -/
def RetryItem.Carries (topic : String) (topicSeq : ℕ) (item : RetryItem) : Prop :=
  item.push.Carries topic topicSeq ∧ item.retryCount < maxRetryAttempts

def DeliveryAction.Carries (topic : String) (topicSeq : ℕ) : DeliveryAction → Prop
  | .push _ _ msg => msg.Carries topic topicSeq
  | .retry item => item.Carries topic topicSeq
  | .receipt _ _ => False

def DeliveryTask.push (task : DeliveryTask) : MessagePush :=
  buildMessagePush task.msgID task.topicSeq task.upstream

/-- Some delivery of the task has somebody to push to. -/
def DeliveryTask.HasRecipients (task : DeliveryTask) : Prop :=
  if task.isGroup then
    task.upstream.mentionedUserIDs ≠ [] ∨
      ∃ groupID, extractGroupID task.upstream.topic = .ok groupID
  else ∃ u ∈ task.recipientIDs, u ≠ task.upstream.senderID

/-- A task of the message with some content that can be pushed. -/
def DeliveryTask.Carries (topic : String) (topicSeq : ℕ) (task : DeliveryTask) : Prop :=
  task.push.Carries topic topicSeq ∧ task.HasRecipients

variable {env : DeliveryEnv} {userIDs : List Int} {a : DeliveryAction} {task : DeliveryTask}

theorem mem_pushToUsers {call : ℕ} {msg : MessagePush} (h : a ∈ pushToUsers env call userIDs msg) :
    userIDs ≠ [] ∧
      (a = .push call userIDs msg ∨ ∃ u, a = .retry (scheduleRetry env.now u msg)) := by
  unfold pushToUsers at h
  split at h
  · cases h
  split at h
  · cases h
  rename_i hne
  refine ⟨hne, ?_⟩
  rcases mem_cons.mp h with rfl | hrest
  · exact .inl rfl
  · split at hrest
    · cases hrest
    · obtain ⟨u, _, rfl⟩ := mem_map.mp hrest
      exact .inr ⟨u, rfl⟩

/-- The message is pushed, or scheduled for a retry. -/
def IsPushOf (task : DeliveryTask) (now : Int) (a : DeliveryAction) : Prop :=
  (∃ call userIDs, a = .push call userIDs task.push) ∨
    ∃ u, a = .retry (scheduleRetry now u task.push)

theorem isPushOf_of_mem {call : ℕ} (h : a ∈ pushToUsers env call userIDs task.push) :
    IsPushOf task env.now a := by
  rcases (mem_pushToUsers h).2 with rfl | hretry
  · exact .inl ⟨_, _, rfl⟩
  · exact .inr hretry

theorem mem_pushSendReceipt {userID msgID : Int} {clientMsgID : String}
    (h : a ∈ pushSendReceipt env userID msgID topic topicSeq clientMsgID) :
    ∃ u receipt, a = .receipt u receipt := by
  unfold pushSendReceipt at h
  split at h
  · exact ⟨_, _, mem_singleton.mp h⟩
  · cases h

theorem mem_deliverP2POrSystemMessage (hgroup : task.isGroup = false)
    (h : a ∈ deliverP2POrSystemMessage env task.upstream task.msgID task.topicSeq
      task.recipientIDs) :
    (task.HasRecipients ∧ IsPushOf task env.now a) ∨ ∃ u receipt, a = .receipt u receipt := by
  rcases mem_append.mp h with hpush | hreceipt
  · refine .inl ⟨?_, isPushOf_of_mem hpush⟩
    obtain ⟨u, hu⟩ := exists_mem_of_ne_nil _ (mem_pushToUsers hpush).1
    simp only [mem_filter, decide_eq_true_eq] at hu
    simp only [HasRecipients, hgroup, Bool.false_eq_true, if_false]
    exact ⟨u, hu.1, hu.2⟩
  · exact .inr (mem_pushSendReceipt hreceipt)

theorem mem_deliverGroupMessage (hgroup : task.isGroup = true)
    (h : a ∈ deliverGroupMessage env task.upstream task.msgID task.topicSeq) :
    (task.HasRecipients ∧ IsPushOf task env.now a) ∨ ∃ u receipt, a = .receipt u receipt := by
  simp only [HasRecipients, hgroup, if_true]
  rcases mem_append.mp h with hmention | hrest
  · exact .inl ⟨.inl (mem_pushToUsers hmention).1, isPushOf_of_mem hmention⟩
  · split at hrest
    · split at hrest
      · cases hrest
      rename_i groupID hid
      split at hrest
      · cases hrest
      split at hrest
      · cases hrest
      · rcases mem_append.mp hrest with hpush | hreceipt
        · exact .inl ⟨.inr ⟨groupID, hid⟩, isPushOf_of_mem hpush⟩
        · exact .inr (mem_pushSendReceipt hreceipt)
    · exact .inr (mem_pushSendReceipt hrest)

theorem carries_of_mem_deliverMessage (h : a ∈ deliverMessage env task)
    (ha : a.Carries topic topicSeq) : task.Carries topic topicSeq := by
  have hcases : (task.HasRecipients ∧ IsPushOf task env.now a) ∨
      ∃ u receipt, a = .receipt u receipt := by
    unfold deliverMessage at h
    cases hgroup : task.isGroup with
    | false =>
      rw [hgroup] at h
      exact mem_deliverP2POrSystemMessage hgroup h
    | true =>
      rw [hgroup] at h
      exact mem_deliverGroupMessage hgroup h
  rcases hcases with ⟨hrecipients, ⟨call, userIDs, rfl⟩ | ⟨u, rfl⟩⟩ | ⟨u, receipt, rfl⟩
  · exact ⟨ha, hrecipients⟩
  · exact ⟨ha.1, hrecipients⟩
  · exact ha.elim

theorem carries_of_mem_processRetryTask {item : RetryItem} (h : a ∈ processRetryTask env item)
    (ha : a.Carries topic topicSeq) : item.Carries topic topicSeq := by
  obtain ⟨hlt, hcases⟩ := mem_processRetryTask h
  cases hcases with
  | inl hpush =>
    rw [hpush] at ha
    exact ⟨ha, hlt⟩
  | inr hretry =>
    rw [hretry] at ha
    exact ⟨ha.1, hlt⟩

end NonokaIM
