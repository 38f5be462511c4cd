import NonokaIM.Model.Delivery
import NonokaIM.Verification.Worker.Traces

/-! The users that a group message reaches: the mention list of the client, and the other
members. -/

namespace NonokaIM

open List

/-- The users passed to `BatchPushToUsers`, over all its calls. -/
def pushedUsers (actions : List DeliveryAction) : List Int :=
  actions.flatMap fun
    | .push _ userIDs _ => userIDs
    | _ => []

@[simp] theorem pushedUsers_nil : pushedUsers [] = [] := rfl

@[simp] theorem pushedUsers_append (xs ys : List DeliveryAction) :
    pushedUsers (xs ++ ys) = pushedUsers xs ++ pushedUsers ys := flatMap_append

@[simp] theorem pushedUsers_push (call : ℕ) (userIDs : List Int) (msg : MessagePush)
    (actions : List DeliveryAction) :
    pushedUsers (.push call userIDs msg :: actions) = userIDs ++ pushedUsers actions :=
  flatMap_cons

@[simp] theorem pushedUsers_handleFailedPushes (env : DeliveryEnv) (failed : List Int)
    (msg : MessagePush) : pushedUsers (handleFailedPushes env failed msg) = [] := by
  rw [pushedUsers, handleFailedPushes, flatMap_map]
  exact flatMap_eq_nil_iff.mpr fun _ _ => rfl

@[simp] theorem pushedUsers_pushSendReceipt (env : DeliveryEnv) (userID msgID : Int)
    (topic : String) (topicSeq : ℕ) (clientMsgID : String) :
    pushedUsers (pushSendReceipt env userID msgID topic topicSeq clientMsgID) = [] := by
  unfold pushSendReceipt
  split <;> rfl

theorem pushedUsers_pushToUsers {env : DeliveryEnv} (h : env.pusher.isSome = true) (call : ℕ)
    (userIDs : List Int) (msg : MessagePush) :
    pushedUsers (pushToUsers env call userIDs msg) = userIDs := by
  obtain ⟨push, hpush⟩ := Option.isSome_iff_exists.mp h
  simp only [pushToUsers, hpush]
  by_cases hnil : userIDs = []
  · simp [hnil]
  · rw [if_neg hnil, pushedUsers_push]
    split <;> simp

/-- The worker has a pusher, and its member service returns this list for the group. -/
structure LooksUp (env : DeliveryEnv) (upstream : UpstreamMessage) (memberIDs : List Int) :
    Prop where
  pusher : env.pusher.isSome = true
  members : ∃ getGroupMembers groupID, env.groupMembers = some getGroupMembers ∧
    extractGroupID upstream.topic = .ok groupID ∧ getGroupMembers groupID = .ok memberIDs

variable {upstream : UpstreamMessage} {memberIDs : List Int}

theorem pushedUsers_deliverGroupMessage {env : DeliveryEnv} (h : LooksUp env upstream memberIDs)
    (msgID : Int) (topicSeq : ℕ) :
    pushedUsers (deliverGroupMessage env upstream msgID topicSeq) =
      upstream.mentionedUserIDs ++ groupRecipients upstream memberIDs := by
  obtain ⟨getGroupMembers, groupID, hmembers, hgroup, hlookup⟩ := h.members
  obtain ⟨push, hpush⟩ := Option.isSome_iff_exists.mp h.pusher
  simp only [deliverGroupMessage, pushedUsers_append, pushedUsers_pushToUsers h.pusher, hmembers,
    hpush, hgroup, hlookup]
  by_cases hnil : memberIDs = []
  · simp [hnil, groupRecipients]
  · simp [hnil, pushedUsers_pushToUsers h.pusher]

theorem mem_groupRecipients {u : Int} :
    u ∈ groupRecipients upstream memberIDs ↔
      u ∈ memberIDs ∧ u ≠ upstream.senderID ∧ u ∉ upstream.mentionedUserIDs := by
  simp [groupRecipients]

/-- The message is pushed to every member but the sender, to each once and to nobody else, and
mention rows are written for members only. -/
structure FanOut (env : DeliveryEnv) (task : DeliveryTask) (memberIDs : List Int) : Prop where
  targets : ∀ u, u ∈ pushedUsers (deliverMessage env task) ↔
    u ∈ memberIDs ∧ u ≠ task.upstream.senderID
  once : (pushedUsers (deliverMessage env task)).Nodup
  mentions : ∀ now fault (s : Store),
    ∀ r ∈ (saveMentions now task.upstream task.msgID task.topicSeq fault s).mentionInboxes.rows,
      r ∈ s.mentionInboxes.rows ∨ r.userID ∈ memberIDs

/-- The mention list names members other than the sender, each once, and no other member is
listed twice. -/
structure MentionsFit (upstream : UpstreamMessage) (memberIDs : List Int) : Prop where
  nodup : upstream.mentionedUserIDs.Nodup
  sender : upstream.senderID ∉ upstream.mentionedUserIDs
  members : upstream.mentionedUserIDs ⊆ memberIDs
  others : ∀ u ∈ memberIDs, u ≠ upstream.senderID → u ∉ upstream.mentionedUserIDs →
    memberIDs.count u = 1

theorem nodup_groupRecipients_iff :
    (groupRecipients upstream memberIDs).Nodup ↔
      ∀ u ∈ memberIDs, u ≠ upstream.senderID → u ∉ upstream.mentionedUserIDs →
        memberIDs.count u = 1 := by
  rw [nodup_iff_count_eq_one]
  constructor
  · intro h u hu hsender hmentioned
    rw [← h u (mem_groupRecipients.mpr ⟨hu, hsender, hmentioned⟩), groupRecipients,
      count_filter (by simp [hsender, hmentioned])]
  · intro h u hu
    obtain ⟨hmember, hsender, hmentioned⟩ := mem_groupRecipients.mp hu
    rw [groupRecipients, count_filter (by simp [hsender, hmentioned])]
    exact h u hmember hsender hmentioned

theorem nodup_targets_iff :
    (upstream.mentionedUserIDs ++ groupRecipients upstream memberIDs).Nodup ↔
      upstream.mentionedUserIDs.Nodup ∧
        ∀ u ∈ memberIDs, u ≠ upstream.senderID → u ∉ upstream.mentionedUserIDs →
          memberIDs.count u = 1 := by
  have hdisjoint : upstream.mentionedUserIDs.Disjoint (groupRecipients upstream memberIDs) := by
    intro u hmentioned hother
    exact (mem_groupRecipients.mp hother).2.2 hmentioned
  rw [nodup_append', nodup_groupRecipients_iff]
  simp only [hdisjoint, and_true]

theorem targets_iff :
    (∀ u, u ∈ upstream.mentionedUserIDs ++ groupRecipients upstream memberIDs ↔
        u ∈ memberIDs ∧ u ≠ upstream.senderID) ↔
      upstream.senderID ∉ upstream.mentionedUserIDs ∧ upstream.mentionedUserIDs ⊆ memberIDs := by
  simp only [mem_append, mem_groupRecipients]
  constructor
  · intro h
    refine ⟨?_, ?_⟩
    · intro hsender
      exact ((h _).mp (.inl hsender)).2 rfl
    · intro u hu
      exact ((h u).mp (.inl hu)).1
  · rintro ⟨hsender, hsub⟩ u
    by_cases hu : u ∈ upstream.mentionedUserIDs
    · have hne : u ≠ upstream.senderID := fun heq => hsender (heq ▸ hu)
      simp [hu, hsub hu, hne]
    · simp [hu]

/-- A group message reaches exactly the members other than its sender exactly when its mention
list fits the group. -/
theorem group_fanout_iff (env : DeliveryEnv) (task : DeliveryTask) (memberIDs : List Int)
    (hgroup : task.isGroup = true) (hlookup : LooksUp env task.upstream memberIDs) :
    FanOut env task memberIDs ↔ MentionsFit task.upstream memberIDs := by
  have hpushed : pushedUsers (deliverMessage env task) =
      task.upstream.mentionedUserIDs ++ groupRecipients task.upstream memberIDs := by
    rw [deliverMessage, if_pos hgroup, pushedUsers_deliverGroupMessage hlookup]
  constructor
  · intro h
    have htargets := h.targets
    have honce := h.once
    rw [hpushed] at honce
    simp only [hpushed] at htargets
    exact ⟨(nodup_targets_iff.mp honce).1, (targets_iff.mp htargets).1,
      (targets_iff.mp htargets).2, (nodup_targets_iff.mp honce).2⟩
  · intro h
    refine ⟨?_, ?_, ?_⟩
    · rw [hpushed]
      exact targets_iff.mpr ⟨h.sender, h.members⟩
    · rw [hpushed]
      exact nodup_targets_iff.mpr ⟨h.nodup, h.others⟩
    · intro now fault s r hr
      rcases Cluster.mem_saveMentions hr with hold | ⟨_, ⟨u, hu, rfl⟩, _⟩
      · exact .inl hold
      · exact .inr (h.members hu)

def withMembers (memberIDs : List Int) : DeliveryEnv where
  pusher := some fun _ _ _ => {}
  groupMembers := some fun _ => .ok memberIDs

theorem mentioned_member_reached_once :
    FanOut (withMembers [1, 2, 3])
      ⟨{ senderID := 1, topic := "grp_1", mentionedUserIDs := [3] }, 7, 1, [], true⟩ [1, 2, 3] :=
  (group_fanout_iff _ _ _ rfl ⟨rfl, _, "1", rfl, by decide, rfl⟩).mpr
    ⟨by decide, by decide, by decide, by decide⟩

/-- User 9, who is not in the group, is pushed its message because the sender mentions them. -/
theorem mentioned_outsider_reached :
    ¬ FanOut (withMembers [1, 2, 3])
      ⟨{ senderID := 1, topic := "grp_1", mentionedUserIDs := [9] }, 7, 1, [], true⟩
      [1, 2, 3] := by
  intro h
  have houtsider := (h.targets 9).mp (by decide)
  exact absurd houtsider.1 (by decide)

end NonokaIM
