import NonokaIM.Library.GuardedRun
import NonokaIM.Library.ReadThrough
import NonokaIM.Model.GroupMember
import NonokaIM.Verification.Topic.Canonical

/-! # The member cache

The sets in Redis are a read-through copy of the table, group by group. -/

namespace NonokaIM

open DocumentStore GuardedRun List MemberState ReadThrough

theorem parse_memberText (userID : Int64) :
    (parseInt64 (memberText userID).toList).map Int64.ofInt = some userID := by
  rw [memberText, parseInt64_toString userID.le_toInt userID.toInt_lt]
  simp

theorem memberText_injective : Function.Injective memberText := by
  intro a b h
  have ha := parse_memberText a
  rw [h, parse_memberText b] at ha
  exact (Option.some.inj ha).symm

def AllIDs (set : List String) : Prop := ∀ m ∈ set, ∃ userID, m = memberText userID

variable {set : List String} {userID : Int64} {x : String} {table : GroupMembers}

theorem mem_parseMemberIDs (h : AllIDs set) :
    userID ∈ parseMemberIDs set ↔ memberText userID ∈ set := by
  simp only [parseMemberIDs, mem_filterMap]
  constructor
  · intro hex
    rcases hex with ⟨m, hm, hparse⟩
    rcases h m hm with ⟨other, rfl⟩
    rw [parse_memberText] at hparse
    rw [← Option.some.inj hparse]
    exact hm
  · intro hm
    exact ⟨_, hm, parse_memberText userID⟩

theorem mem_sAdd {m : String} : x ∈ sAdd set m ↔ x = m ∨ x ∈ set := by
  by_cases h : m ∈ set
  · rw [sAdd, if_pos h]
    constructor
    · exact .inr
    · rintro (rfl | hx)
      · exact h
      · exact hx
  · rw [sAdd, if_neg h, mem_append, mem_singleton, or_comm]

theorem mem_foldl_sAdd {ms : List String} : x ∈ ms.foldl sAdd set ↔ x ∈ ms ∨ x ∈ set := by
  induction ms generalizing set with
  | nil => simp
  | cons m ms ih =>
    rw [foldl_cons, ih, mem_sAdd, mem_cons, or_left_comm, or_assoc]

theorem mem_sRem {m : String} : x ∈ sRem set m ↔ x ∈ set ∧ x ≠ m := by
  simp [sRem]

theorem mem_getMembers {groupID : String} :
    userID ∈ getMembers groupID table ↔ ⟨groupID, userID⟩ ∈ table.rows := by
  simp only [getMembers, mem_insertionSort, mem_map, mem_filter, decide_eq_true_eq]
  constructor
  · rintro ⟨r, ⟨hr, rfl⟩, rfl⟩
    exact hr
  · intro hr
    exact ⟨_, ⟨hr, rfl⟩, rfl⟩

theorem mem_addMember {groupID : String} {r : GroupMember} :
    r ∈ (addMember groupID userID table).rows ↔ r = ⟨groupID, userID⟩ ∨ r ∈ table.rows := by
  have hblocked : Blocked groupMemberKeys table.rows ⟨groupID, userID⟩ ↔
      ⟨groupID, userID⟩ ∈ table.rows := by
    simp [Blocked, Conflict, groupMemberKeys]
  rw [addMember, Collection.rows_insert]
  simp only [hblocked]
  split
  · rename_i h
    constructor
    · exact .inr
    · rintro (rfl | hr)
      · exact h
      · exact hr
  · rw [mem_append, mem_singleton, or_comm]

theorem mem_removeMember {groupID : String} {r : GroupMember} :
    r ∈ (removeMember groupID userID table).rows ↔ r ∈ table.rows ∧ r ≠ ⟨groupID, userID⟩ := by
  cases r
  simp [removeMember, imp_iff_not_or]

inductive MemberCall where
  | getGroupMembers (groupID : String)
  | addGroupMember (groupID : String) (userID : Int64)
  | removeGroupMember (groupID : String) (userID : Int64)
  | expire (groupID : String)

def memberStep (s : MemberState) : MemberCall → MemberState
  | .getGroupMembers groupID => (getGroupMembers .none groupID s).2
  | .addGroupMember groupID userID => (addGroupMember .none groupID userID s).2
  | .removeGroupMember groupID userID => (removeGroupMember .none groupID userID s).2
  | .expire groupID => s.setCache groupID []

/-- A call for any group returns exactly the users of the table. -/
def ReturnsStored (s : MemberState) : Prop :=
  ∀ groupID, ∃ ids, (getGroupMembers .none groupID s).1 = .ok ids ∧
    ∀ userID, userID ∈ ids ↔ ⟨groupID, userID⟩ ∈ s.members.rows

/-- A member is added to a cached set, or to a group without other members. -/
def MeetsCache (s : MemberState) : MemberCall → Prop
  | .addGroupMember groupID userID =>
    s.cache groupID = [] → ∀ r ∈ s.members.rows, r.groupID = groupID → r.userID = userID
  | _ => True

/-! ## The copy of a group -/

def MemberState.view (s : MemberState) (groupID : String) : State Int64 where
  stored := {userID | ⟨groupID, userID⟩ ∈ s.members.rows}
  cached := {userID | memberText userID ∈ s.cache groupID}

def CachesIDs (s : MemberState) : Prop := ∀ groupID, AllIDs (s.cache groupID)

variable {s : MemberState}

theorem view_absent_iff (h : CachesIDs s) (groupID : String) :
    (s.view groupID).cached = ∅ ↔ s.cache groupID = [] := by
  constructor
  · intro hview
    apply eq_nil_iff_forall_not_mem.mpr
    intro m hm
    rcases h groupID m hm with ⟨userID, rfl⟩
    have hmem : userID ∈ (s.view groupID).cached := hm
    rw [hview] at hmem
    exact hmem
  · intro hnil
    ext userID
    simp [view, hnil]

theorem getGroupMembers_of_absent {groupID : String} (h : s.cache groupID = []) :
    getGroupMembers .none groupID s =
      (.ok (getMembers groupID s.members),
        s.setCache groupID (((getMembers groupID s.members).map memberText).foldl sAdd [])) := by
  simp [getGroupMembers, MemberFault.none, h]

theorem getGroupMembers_of_present {groupID : String} (h : s.cache groupID ≠ []) :
    getGroupMembers .none groupID s = (.ok (parseMemberIDs (s.cache groupID)), s) := by
  simp [getGroupMembers, MemberFault.none, h]

theorem getGroupMembers_reads (h : CachesIDs s) (groupID : String) :
    ∃ ids, (getGroupMembers .none groupID s).1 = .ok ids ∧
      ∀ userID, userID ∈ ids ↔ userID ∈ read (s.view groupID) := by
  by_cases hnil : s.cache groupID = []
  · refine ⟨_, by rw [getGroupMembers_of_absent hnil], ?_⟩
    intro userID
    rw [read_of_absent ((view_absent_iff h groupID).mpr hnil), mem_getMembers]
    rfl
  · refine ⟨_, by rw [getGroupMembers_of_present hnil], ?_⟩
    intro userID
    rw [read_of_present (mt (view_absent_iff h groupID).mp hnil), mem_parseMemberIDs (h groupID)]
    rfl

theorem returnsStored_iff_coherent (h : CachesIDs s) :
    ReturnsStored s ↔ ∀ groupID, Coherent (s.view groupID) := by
  apply forall_congr'
  intro groupID
  rcases getGroupMembers_reads h groupID with ⟨ids, hok, hread⟩
  constructor
  · rintro ⟨ids', hok', hstored⟩
    rw [hok] at hok'
    cases hok'
    ext userID
    rw [← hread, hstored]
    rfl
  · intro hcoh
    refine ⟨ids, hok, ?_⟩
    intro userID
    rw [hread, hcoh]
    rfl

/-! ## Each call is an operation on one copy -/

def MemberCall.groupID : MemberCall → String
  | .getGroupMembers groupID => groupID
  | .addGroupMember groupID _ => groupID
  | .removeGroupMember groupID _ => groupID
  | .expire groupID => groupID

def MemberCall.op : MemberCall → Op Int64
  | .getGroupMembers _ => .fill
  | .addGroupMember _ userID => .add userID
  | .removeGroupMember _ userID => .remove userID
  | .expire _ => .expire

theorem cachesIDs_setCache (h : CachesIDs s) {groupID : String} (hset : AllIDs set) :
    CachesIDs (s.setCache groupID set) := by
  intro other
  by_cases ho : other = groupID
  · subst ho
    simpa [setCache] using hset
  · simpa [setCache, ho] using h other

theorem cachesIDs_step (h : CachesIDs s) (call : MemberCall) : CachesIDs (memberStep s call) := by
  cases call with
  | getGroupMembers groupID =>
    simp only [memberStep]
    by_cases hnil : s.cache groupID = []
    · rw [getGroupMembers_of_absent hnil]
      apply cachesIDs_setCache h
      intro m hm
      simp only [mem_foldl_sAdd, mem_map, List.not_mem_nil, or_false] at hm
      rcases hm with ⟨userID, _, rfl⟩
      exact ⟨userID, rfl⟩
    · rw [getGroupMembers_of_present hnil]
      exact h
  | addGroupMember groupID userID =>
    have hrows : CachesIDs { s with members := addMember groupID userID s.members } := h
    refine cachesIDs_setCache hrows ?_
    intro m hm
    rcases mem_sAdd.mp hm with rfl | hm
    · exact ⟨userID, rfl⟩
    · exact h groupID m hm
  | removeGroupMember groupID userID =>
    refine cachesIDs_setCache h ?_
    intro m hm
    exact h groupID m (mem_sRem.mp hm).1
  | expire groupID =>
    apply cachesIDs_setCache h
    intro m hm
    cases hm

theorem view_step (h : CachesIDs s) (call : MemberCall) :
    (memberStep s call).view call.groupID = step (s.view call.groupID) call.op := by
  cases call with
  | getGroupMembers groupID =>
    simp only [memberStep, MemberCall.groupID, MemberCall.op, step]
    by_cases hnil : s.cache groupID = []
    · rw [getGroupMembers_of_absent hnil, read_of_absent ((view_absent_iff h groupID).mpr hnil)]
      ext userID
      · rfl
      · simp [view, setCache, mem_foldl_sAdd, mem_getMembers, memberText_injective.eq_iff]
    · rw [getGroupMembers_of_present hnil, read_of_present (mt (view_absent_iff h groupID).mp hnil)]
  | addGroupMember groupID userID =>
    ext other
    · simp [memberStep, addGroupMember, MemberFault.none, view, setCache,
        MemberCall.groupID, MemberCall.op, step, mem_addMember]
    · simp [memberStep, addGroupMember, MemberFault.none, view, setCache,
        MemberCall.groupID, MemberCall.op, step, mem_sAdd,
        memberText_injective.eq_iff]
  | removeGroupMember groupID userID =>
    ext other
    · simp [memberStep, removeGroupMember, MemberFault.none, view,
        setCache, MemberCall.groupID, MemberCall.op, step,
        mem_removeMember]
    · simp [memberStep, removeGroupMember, MemberFault.none, view,
        setCache, MemberCall.groupID, MemberCall.op, step, mem_sRem,
        memberText_injective.eq_iff]
  | expire groupID =>
    ext other
    · rfl
    · simp [memberStep, view, setCache, MemberCall.groupID, MemberCall.op, step]

theorem view_step_other (call : MemberCall) {groupID : String} (hne : groupID ≠ call.groupID) :
    (memberStep s call).view groupID = s.view groupID := by
  cases call with
  | getGroupMembers g =>
    simp only [memberStep]
    by_cases hnil : s.cache g = []
    · rw [getGroupMembers_of_absent hnil]
      simp [view, setCache, show groupID ≠ g from hne]
    · rw [getGroupMembers_of_present hnil]
  | addGroupMember g userID =>
    simp [memberStep, addGroupMember, MemberFault.none, view, setCache,
      mem_addMember, show groupID ≠ g from hne]
  | removeGroupMember g userID =>
    simp [memberStep, removeGroupMember, MemberFault.none, view,
      setCache, mem_removeMember, show groupID ≠ g from hne]
  | expire g =>
    simp [memberStep, view, setCache, show groupID ≠ g from hne]

/-! ## Sequences of calls -/

theorem keeps_iff_meetsCache (h : CachesIDs s) (call : MemberCall) :
    Keeps (s.view call.groupID) call.op ↔ MeetsCache s call := by
  cases call with
  | addGroupMember groupID userID =>
    simp only [MemberCall.op, MemberCall.groupID, Keeps, MeetsCache, view_absent_iff h]
    apply imp_congr_right
    intro _
    constructor
    · rintro hsub ⟨g, other⟩ hr rfl
      exact hsub hr
    · intro hall other hr
      exact hall _ hr rfl
  | getGroupMembers groupID | removeGroupMember groupID userID | expire groupID => exact Iff.rfl

theorem returnsStored_step_iff (h : CachesIDs s) (hret : ReturnsStored s) (call : MemberCall) :
    ReturnsStored (memberStep s call) ↔ MeetsCache s call := by
  rw [returnsStored_iff_coherent h] at hret
  rw [returnsStored_iff_coherent (cachesIDs_step h call), ← keeps_iff_meetsCache h,
    ← coherent_step_iff (hret call.groupID), ← view_step h]
  constructor
  · intro hall
    exact hall call.groupID
  · intro hown groupID
    by_cases hg : groupID = call.groupID
    · rw [hg]
      exact hown
    · rw [view_step_other call hg]
      exact hret groupID

/-- From a cold cache and any table, the service returns the stored members at every moment of
a sequence of calls exactly when no member is added past a cold cache of a group that has
others. -/
theorem getGroupMembers_returns_stored_iff (table : GroupMembers) (calls : List MemberCall) :
    (∀ done, done <+: calls → ReturnsStored (run memberStep { members := table } done)) ↔
      Along memberStep MeetsCache { members := table } calls := by
  have hcold : CachesIDs { members := table } := by
    intro groupID m hm
    cases hm
  have hstored : ReturnsStored { members := table } := by
    apply (returnsStored_iff_coherent hcold).mpr
    intro groupID
    exact coherent_iff.mpr (.inl ((view_absent_iff hcold groupID).mpr rfl))
  have hstep : ∀ s call, CachesIDs s ∧ ReturnsStored s →
      (ReturnsStored (memberStep s call) ↔ MeetsCache s call) :=
    fun s call hs => returnsStored_step_iff hs.1 hs.2 call
  rw [good_always_iff_along, and_iff_right hstored]
  refine along_congr hstep ?_ ⟨hcold, hstored⟩
  intro s call hs hnext
  exact ⟨cachesIDs_step hs.1 call, hnext⟩

/-- After the first addition to a group of two users, whose set is not cached, the group has one
member for its readers. -/
theorem added_member_hides_the_others :
    ¬ ReturnsStored (run memberStep
      { members := addMember "g" 2 (addMember "g" 1 .empty) } [.addGroupMember "g" 3]) := by
  intro h
  rcases h "g" with ⟨ids, hok, hids⟩
  have hread : (getGroupMembers .none "g" (run memberStep
      { members := addMember "g" 2 (addMember "g" 1 .empty) } [.addGroupMember "g" 3])).1 =
        .ok [3] := by decide
  rw [hread] at hok
  cases hok
  have hone := (hids 1).mpr (by decide)
  exact absurd hone (by decide)

end NonokaIM
