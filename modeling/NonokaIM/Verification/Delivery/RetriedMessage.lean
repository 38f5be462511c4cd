import NonokaIM.Model.RetryMember

/-! What is left of a message when its push is retried: an item has no place for mentions and
recalls. -/

namespace NonokaIM

open FlatJson List

theorem bar_notMem_printInt (n : Int) : '|' ∉ printInt n := by
  intro h
  exact absurd (mem_printInt h) (by decide)

theorem memberData_member (isNil : Bool) (item : RetryItem) :
    memberData (item.member isNil) = some (printObject (item.fields isNil)) := by
  have hkey : ∀ c ∈ item.memberKey, c ≠ '|' := by
    intro c hc heq
    rw [heq, RetryItem.memberKey, mem_append, mem_cons, mem_append, mem_cons] at hc
    simp [bar_notMem_printInt] at hc
  have hdrop : (item.member isNil).dropWhile (· ≠ '|') =
      '|' :: printObject (item.fields isNil) := by
    rw [RetryItem.member, dropWhile_append_of_pos (by simpa using hkey)]
    exact dropWhile_cons_of_neg (by decide)
  rw [memberData, hdrop]

theorem memberItem_member (isNil : Bool) (item : RetryItem) :
    memberItem (item.member isNil) = some item := by
  rw [memberItem, memberData_member, Option.bind_some, readItem_fields]

theorem processRetryMember_member (env : DeliveryEnv) (isNil : Bool) (item : RetryItem) :
    processRetryMember env (item.member isNil) = processRetryTask env item := by
  rw [processRetryMember, memberItem_member]

/-- The members that stand for a push to a user after some number of requeues. -/
inductive Requeued (userID : Int) (msg : MessagePush) : ℕ → List Char → Prop where
  | scheduled (now : Int) (isNil : Bool) :
      Requeued userID msg 0 ((scheduleRetry now userID msg).member isNil)
  | requeued {n : ℕ} {member : List Char} {env : DeliveryEnv} {item : RetryItem} (isNil : Bool) :
      Requeued userID msg n member → .retry item ∈ processRetryMember env member →
      Requeued userID msg (n + 1) (item.member isNil)

def MessagePush.plain (msg : MessagePush) : MessagePush :=
  { msg with recalled := false, mentionedUserIDs := [] }

theorem push_scheduleRetry (now userID : Int) (msg : MessagePush) :
    (scheduleRetry now userID msg).push = msg.plain := rfl

theorem push_requeue (now : Int) (item : RetryItem) : (item.requeue now).push = item.push := rfl

variable {msg : MessagePush}

theorem Requeued.item {userID : Int} {n : ℕ} {member : List Char}
    (h : Requeued userID msg n member) :
    ∃ (item : RetryItem) (isNil : Bool), member = item.member isNil ∧ item.userID = userID ∧
      item.push = msg.plain := by
  induction h with
  | scheduled now isNil => exact ⟨_, isNil, rfl, rfl, push_scheduleRetry now userID msg⟩
  | requeued isNil hmember hretry ih =>
    obtain ⟨item, _, rfl, huser, hpush⟩ := ih
    rw [processRetryMember_member] at hretry
    cases (mem_processRetryTask hretry).2 with
    | inl h => cases h
    | inr h =>
      cases h
      exact ⟨_, isNil, rfl, huser, (push_requeue _ item).trans hpush⟩

theorem Requeued.push {userID : Int} {n : ℕ} {member : List Char} (h : Requeued userID msg n member)
    {env : DeliveryEnv} {call : ℕ} {userIDs : List Int} {pushed : MessagePush}
    (hpush : .push call userIDs pushed ∈ processRetryMember env member) :
    userIDs = [userID] ∧ pushed = msg.plain := by
  obtain ⟨item, isNil, rfl, huser, hmsg⟩ := h.item
  rw [processRetryMember_member] at hpush
  cases (mem_processRetryTask hpush).2 with
  | inl h =>
    cases h
    exact ⟨congrArg (fun u => [u]) huser, hmsg⟩
  | inr h => cases h

theorem push_scheduled (now userID : Int) (msg : MessagePush) (isNil : Bool) :
    .push 0 [userID] msg.plain ∈ processRetryMember { pusher := some fun _ _ _ => {} }
      ((scheduleRetry now userID msg).member isNil) := by
  rw [processRetryMember_member]
  exact mem_cons_self

theorem plain_eq_iff : msg.plain = msg ↔ msg.recalled = false ∧ msg.mentionedUserIDs = [] := by
  obtain ⟨_, _, _, _, _, _, _, _, recalled, mentionedUserIDs⟩ := msg
  simp only [MessagePush.plain, MessagePush.mk.injEq, true_and]
  exact and_congr eq_comm eq_comm

/-- After any number of requeues, every push of a member is the original message to its user. -/
def RetriedSame (userID : Int) (msg : MessagePush) : Prop :=
  ∀ n member, Requeued userID msg n member → ∀ env call userIDs pushed,
    .push call userIDs pushed ∈ processRetryMember env member →
      userIDs = [userID] ∧ pushed = msg

/-- A message is the same in its retries just when it is not recalled and mentions nobody. -/
theorem retried_push_same_iff (userID : Int) (msg : MessagePush) :
    RetriedSame userID msg ↔ msg.recalled = false ∧ msg.mentionedUserIDs = [] := by
  rw [← plain_eq_iff]
  constructor
  · intro h
    exact (h 0 _ (.scheduled 0 false) _ 0 _ _ (push_scheduled 0 userID msg false)).2
  · intro hplain n member hmember env call userIDs pushed hpush
    obtain ⟨husers, hmsg⟩ := hmember.push hpush
    exact ⟨husers, hmsg.trans hplain⟩

def mentionPush : MessagePush :=
  buildMessagePush 7 3
    { senderID := 1, topic := "grp_1", content := [104], mentionedUserIDs := [5] }

/-- The retried push to user 5 mentions nobody. -/
theorem mention_lost_on_retry :
    .push 0 [5] ⟨7, "grp_1", 1, 0, [104], 0, 3, "", false, []⟩ ∈
        processRetryMember { pusher := some fun _ _ _ => {} }
          ((scheduleRetry 0 5 mentionPush).member false) ∧
      ¬RetriedSame 5 mentionPush := by
  have hpush := push_scheduled 0 5 mentionPush false
  refine ⟨hpush, ?_⟩
  intro h
  have hsame := (h 0 _ (.scheduled 0 false) _ 0 _ _ hpush).2
  exact absurd hsame (by decide)

end NonokaIM
