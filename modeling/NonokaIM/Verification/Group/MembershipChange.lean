import NonokaIM.Model.GroupService
import NonokaIM.Verification.Delivery.FanOut
import NonokaIM.Verification.Group.MemberCache

/-! # Membership changes and deliveries

A worker reads the table of members through its cached set. -/

namespace NonokaIM

open DocumentStore GroupService

structure GroupSystem where
  db : GroupTables
  cache : String → List String

def GroupSystem.memberState (s : GroupSystem) : MemberState where
  members := s.db.members
  cache := s.cache

/-- A worker with a pusher, whose member service is the one over these tables and sets. -/
def GroupSystem.worker (s : GroupSystem) (push : ℕ → List Int → MessagePush → PushReply)
    (env : DeliveryEnv) : DeliveryEnv :=
  { env with
    pusher := some push
    groupMembers := some fun groupID =>
      (getGroupMembers .none groupID s.memberState).1.map fun ids => ids.map Int64.toInt }

def GroupSystem.reached (s : GroupSystem) (push : ℕ → List Int → MessagePush → PushReply)
    (env : DeliveryEnv) (groupID : String) (upstream : UpstreamMessage) (msgID : Int)
    (topicSeq : ℕ) : List Int :=
  pushedUsers (deliverMessage (s.worker push env)
    { upstream := { upstream with topic := "grp_" ++ groupID }
      msgID, topicSeq, recipientIDs := [], isGroup := true })

def GroupSystem.lookedUp (s : GroupSystem) (groupID : String) : List Int64 :=
  if s.cache groupID = [] then getMembers groupID s.db.members
  else parseMemberIDs (s.cache groupID)

theorem extractGroupID_grp (groupID : String) :
    extractGroupID ("grp_" ++ groupID) = .ok groupID := by
  simp [extractGroupID, hasPrefix]

theorem getGroupMembers_memberState (s : GroupSystem) (groupID : String) :
    (getGroupMembers .none groupID s.memberState).1 = .ok (s.lookedUp groupID) := by
  by_cases hnil : s.cache groupID = []
  · rw [getGroupMembers_of_absent hnil, GroupSystem.lookedUp, if_pos hnil]
    rfl
  · rw [getGroupMembers_of_present hnil, GroupSystem.lookedUp, if_neg hnil]
    rfl

theorem mem_reached_iff (s : GroupSystem) (push : ℕ → List Int → MessagePush → PushReply)
    (env : DeliveryEnv) (groupID : String) (upstream : UpstreamMessage) (msgID : Int)
    (topicSeq : ℕ) (userID : Int64) :
    userID.toInt ∈ s.reached push env groupID upstream msgID topicSeq ↔
      userID.toInt ∈ upstream.mentionedUserIDs ∨
        (userID ∈ s.lookedUp groupID ∧ userID.toInt ≠ upstream.senderID) := by
  have hlooks : LooksUp (s.worker push env) { upstream with topic := "grp_" ++ groupID }
      ((s.lookedUp groupID).map Int64.toInt) := by
    refine ⟨rfl, _, groupID, rfl, extractGroupID_grp groupID, ?_⟩
    rw [getGroupMembers_memberState]
    rfl
  have hmem : userID.toInt ∈ (s.lookedUp groupID).map Int64.toInt ↔
      userID ∈ s.lookedUp groupID := by
    simp [Int64.toInt_inj]
  rw [GroupSystem.reached, deliverMessage, if_pos rfl, pushedUsers_deliverGroupMessage hlooks,
    List.mem_append, mem_groupRecipients, hmem]
  by_cases hmentioned : userID.toInt ∈ upstream.mentionedUserIDs
  · simp [hmentioned]
  · simp [hmentioned]

/-! ## Calls of the API -/

/-- A call fails and leaves the tables, or it passes its check and writes. -/
def ChecksFirst (check : Except ApiError Unit) (db written : GroupTables)
    (reply : Except ApiError Unit × GroupTables) : Prop :=
  (∃ e, reply = (.error e, db)) ∨ check = .ok () ∧ reply.2 = written

theorem ChecksFirst.of_ok {check : Except ApiError Unit} {db written : GroupTables}
    {reply : Except ApiError Unit × GroupTables} (hr : ChecksFirst check db written reply)
    (h : reply.1 = .ok ()) : check = .ok () ∧ reply.2 = written := by
  obtain ⟨e, rfl⟩ | hwritten := hr
  · cases h
  · exact hwritten

variable (fault : GroupFault) (userID : Int64) (groupID : String) (memberID : Int64)
  (db : GroupTables)

theorem addGroupMember_checks :
    ChecksFirst (checkAdd fault userID groupID memberID db) db
      { db with members := addMember groupID memberID db.members }
      (GroupService.addGroupMember fault userID groupID memberID db) := by
  unfold GroupService.addGroupMember
  cases checkAdd fault userID groupID memberID db with
  | error e => exact .inl ⟨e, rfl⟩
  | ok u =>
    cases fault.write with
    | failed => exact .inl ⟨_, rfl⟩
    | none | lost => exact .inr ⟨rfl, rfl⟩

theorem removeGroupMember_checks :
    ChecksFirst (checkRemove fault userID groupID memberID db) db
      { db with members := removeMember groupID memberID db.members }
      (GroupService.removeGroupMember fault userID groupID memberID db) := by
  unfold GroupService.removeGroupMember
  cases checkRemove fault userID groupID memberID db with
  | error e => exact .inl ⟨e, rfl⟩
  | ok u =>
    cases fault.write with
    | failed => exact .inl ⟨_, rfl⟩
    | none | lost => exact .inr ⟨rfl, rfl⟩

/-! ## The next delivery -/

/-- The user whom a successful call removed is left out of the next message exactly when the
cached set is absent or does not list them, apart from a sender and mentions; and the user
whom a successful call added is reached exactly when the set is absent or lists them, apart from
the same. -/
theorem membership_change_takes_effect_iff (cache : String → List String)
    (push : ℕ → List Int → MessagePush → PushReply) (env : DeliveryEnv)
    (upstream : UpstreamMessage) (msgID : Int) (topicSeq : ℕ) (fault : GroupFault)
    (userID : Int64) (groupID : String) (memberID : Int64) (db : GroupTables) :
    ((GroupService.removeGroupMember fault userID groupID memberID db).1 = .ok () →
      ((memberID.toInt ∈ GroupSystem.reached
            ⟨(GroupService.removeGroupMember fault userID groupID memberID db).2, cache⟩
            push env groupID upstream msgID topicSeq →
          memberID.toInt ∈ upstream.mentionedUserIDs) ↔
        (cache groupID = [] ∨ memberID ∉ parseMemberIDs (cache groupID)) ∨
          memberID.toInt = upstream.senderID ∨ memberID.toInt ∈ upstream.mentionedUserIDs)) ∧
    ((GroupService.addGroupMember fault userID groupID memberID db).1 = .ok () →
      (memberID.toInt ∈ GroupSystem.reached
            ⟨(GroupService.addGroupMember fault userID groupID memberID db).2, cache⟩
            push env groupID upstream msgID topicSeq ↔
        (cache groupID = [] ∨ memberID ∈ parseMemberIDs (cache groupID)) ∧
            memberID.toInt ≠ upstream.senderID ∨
          memberID.toInt ∈ upstream.mentionedUserIDs)) := by
  constructor
  · intro hok
    rw [((removeGroupMember_checks ..).of_ok hok).2, mem_reached_iff]
    have hlooked : memberID ∈ GroupSystem.lookedUp
        ⟨{ db with members := removeMember groupID memberID db.members }, cache⟩ groupID ↔
          ¬ (cache groupID = [] ∨ memberID ∉ parseMemberIDs (cache groupID)) := by
      by_cases hnil : cache groupID = []
      · simp [GroupSystem.lookedUp, hnil, mem_getMembers, mem_removeMember]
      · simp [GroupSystem.lookedUp, hnil]
    rw [hlooked]
    by_cases hmentioned : memberID.toInt ∈ upstream.mentionedUserIDs
    · simp only [hmentioned, implies_true, or_true]
    · simp only [hmentioned, false_or, or_false, imp_false, ne_eq, ← not_or, not_not]
  · intro hok
    rw [((addGroupMember_checks ..).of_ok hok).2, mem_reached_iff]
    have hlooked : memberID ∈ GroupSystem.lookedUp
        ⟨{ db with members := addMember groupID memberID db.members }, cache⟩ groupID ↔
          cache groupID = [] ∨ memberID ∈ parseMemberIDs (cache groupID) := by
      by_cases hnil : cache groupID = []
      · simp [GroupSystem.lookedUp, hnil, mem_getMembers, mem_addMember]
      · simp [GroupSystem.lookedUp, hnil]
    rw [hlooked]
    exact or_comm

def pairOfUsers : GroupTables where
  groups := Collection.empty.insert ⟨"g", 1⟩
  users := [1, 2]
  members := addMember "g" 2 (addMember "g" 1 .empty)

/-- Without a cached set, the owner's changes take effect. -/
theorem membership_change_with_cold_cache :
    (GroupService.removeGroupMember {} 1 "g" 2 pairOfUsers).1 = .ok () ∧
    (GroupService.addGroupMember {} 1 "g" 3 pairOfUsers).1 = .ok () ∧
    (Int64.toInt 2 ∈ GroupSystem.reached
        ⟨(GroupService.removeGroupMember {} 1 "g" 2 pairOfUsers).2, fun _ => []⟩
        (fun _ _ _ => {}) {} "g" { senderID := 1, topic := "" } 7 1 → Int64.toInt 2 ∈ []) ∧
    Int64.toInt 3 ∈ GroupSystem.reached
        ⟨(GroupService.addGroupMember {} 1 "g" 3 pairOfUsers).2, fun _ => []⟩
        (fun _ _ _ => {}) {} "g" { senderID := 1, topic := "" } 7 1 := by
  have hremove : (GroupService.removeGroupMember {} 1 "g" 2 pairOfUsers).1 = .ok () := by
    decide
  have hadd : (GroupService.addGroupMember {} 1 "g" 3 pairOfUsers).1 = .ok () := by
    decide
  refine ⟨hremove, hadd, ?_, ?_⟩
  · exact ((membership_change_takes_effect_iff (fun _ => []) (fun _ _ _ => {}) {}
      { senderID := 1, topic := "" } 7 1 {} 1 "g" 2 pairOfUsers).1 hremove).mpr (.inl (.inl rfl))
  · exact ((membership_change_takes_effect_iff (fun _ => []) (fun _ _ _ => {}) {}
      { senderID := 1, topic := "" } 7 1 {} 1 "g" 3 pairOfUsers).2 hadd).mpr
      (.inl ⟨.inl rfl, by decide⟩)

/-- With the set of both users cached, the removed user is still reached and an added one is
not. -/
theorem membership_change_behind_the_cache :
    ((GroupService.removeGroupMember {} 1 "g" 2 pairOfUsers).1 = .ok () ∧
      Int64.toInt 2 ∈ GroupSystem.reached
        ⟨(GroupService.removeGroupMember {} 1 "g" 2 pairOfUsers).2, fun _ => ["1", "2"]⟩
        (fun _ _ _ => {}) {} "g" { senderID := 1, topic := "" } 7 1) ∧
    (GroupService.addGroupMember {} 1 "g" 3 pairOfUsers).1 = .ok () ∧
      Int64.toInt 3 ∉ GroupSystem.reached
        ⟨(GroupService.addGroupMember {} 1 "g" 3 pairOfUsers).2, fun _ => ["1", "2"]⟩
        (fun _ _ _ => {}) {} "g" { senderID := 1, topic := "" } 7 1 := by
  decide

end NonokaIM
