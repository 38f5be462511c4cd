import NonokaIM.Verification.Group.MembershipChange

/-! # Where memberships come from

Each member was let in by a request and has not been put out since. -/

namespace NonokaIM

open DocumentStore GuardedRun GroupAction GroupCall GroupTables List CallFault GroupService

def GroupTables.IsOwner (db : GroupTables) (groupID : String) (userID : Int64) : Prop :=
  ⟨groupID, userID⟩ ∈ db.groups.rows

def GroupTables.IsMember (db : GroupTables) (groupID : String) (userID : Int64) : Prop :=
  ⟨groupID, userID⟩ ∈ db.members.rows

section

variable (wide : Int → Int) (db : GroupTables)

def GroupCall.Succeeds (call : GroupCall) : Prop := (call.handle wide db).1 = .ok ()

/-- The call with an answer to its write. -/
def GroupCall.answered (call : GroupCall) : GroupCall :=
  { call with fault := { call.fault with write := .none } }

/-- The call passes its checks and its write is carried out, whether or not the answer to it
arrives. -/
def GroupCall.TakesEffect (call : GroupCall) : Prop :=
  call.fault.write.applied = true ∧ call.answered.Succeeds wide db

/-- Why a request may let a user into a group: they create it, they are on the list that it is
created with, or its owner or a member adds them. -/
def GroupCall.MayAdmit (call : GroupCall) (groupID : String) (userID : Int64) : Prop :=
  match call.request with
  | .createGroup newID _ memberIDs =>
    groupID = newID ∧ (∀ ownerID, ¬ db.IsOwner newID ownerID) ∧
      (userID = call.userID wide ∨ (userID ∈ memberIDs ∧ userID ≠ 0))
  | .addGroupMember group memberID =>
    groupID = group ∧ userID = memberID ∧
      (db.IsOwner group (call.userID wide) ∨ db.IsMember group (call.userID wide))
  | .removeGroupMember _ _ => False

/-- Why a request may put a user out of a group: it is their own, or the owner's. -/
def GroupCall.MayRemove (call : GroupCall) (groupID : String) (userID : Int64) : Prop :=
  match call.request with
  | .createGroup _ _ _ => False
  | .addGroupMember _ _ => False
  | .removeGroupMember group memberID =>
    groupID = group ∧ userID = memberID ∧
      (call.userID wide = memberID ∨ db.IsOwner group (call.userID wide))

/-- The event lets the user into the group, for one of the reasons above. -/
def Joins (event : GroupAction) (groupID : String) (userID : Int64) : Prop :=
  match event with
  | .request call => call.TakesEffect wide db ∧ call.MayAdmit wide db groupID userID
  | .registered _ => False

/-- The event puts the user out of the group, for one of the reasons above. -/
def Leaves (event : GroupAction) (groupID : String) (userID : Int64) : Prop :=
  match event with
  | .request call => call.TakesEffect wide db ∧ call.MayRemove wide db groupID userID
  | .registered _ => False

end

section

variable {fault : GroupFault} {userID : Int64} {groupID : String} {memberID : Int64}
  {db : GroupTables}

theorem getGroup_owner {fails : Bool} {group : Group} (h : getGroup groupID fails db = .ok group) :
    db.IsOwner groupID group.ownerID := by
  unfold getGroup at h
  cases fails with
  | true => cases h
  | false =>
    cases hfind : db.groups.rows.find? fun g => g.groupID = groupID with
    | none => simp [hfind] at h
    | some found =>
      obtain rfl : found = group := by simpa [hfind] using h
      obtain rfl : found.groupID = groupID := by simpa using find?_some hfind
      exact mem_of_find?_eq_some hfind

theorem listMembers_isMember {fails : Bool} {members : List Int64}
    (h : listMembers groupID fails db = .ok members) (hmem : userID ∈ members) :
    db.IsMember groupID userID := by
  cases fails with
  | true => cases h
  | false =>
    obtain rfl := Except.ok.inj h
    obtain ⟨⟨row, ⟨hrow, rfl⟩, rfl⟩, -⟩ := by simpa using hmem
    exact hrow

theorem checkAdd_ok (h : checkAdd fault userID groupID memberID db = .ok ()) :
    db.IsOwner groupID userID ∨ db.IsMember groupID userID := by
  obtain ⟨-, -, h⟩ := bind_eq_ok.mp h
  obtain ⟨group, hgroup, h⟩ := bind_eq_ok.mp h
  obtain ⟨members, hmembers, h⟩ := bind_eq_ok.mp h
  by_cases howner : group.ownerID = userID
  · exact .inl (howner ▸ getGroup_owner hgroup)
  · by_cases hmem : userID ∈ members
    · exact .inr (listMembers_isMember hmembers hmem)
    · simp [howner, hmem] at h

theorem checkRemove_ok (h : checkRemove fault userID groupID memberID db = .ok ()) :
    userID = memberID ∨ db.IsOwner groupID userID := by
  obtain ⟨-, -, h⟩ := bind_eq_ok.mp h
  obtain ⟨group, hgroup, h⟩ := bind_eq_ok.mp h
  by_cases howner : group.ownerID = userID
  · exact .inr (howner ▸ getGroup_owner hgroup)
  · by_cases hself : memberID = userID
    · exact .inl hself.symm
    · simp [howner, hself] at h

/-! ## Creation -/

theorem mem_creationMembers {ownerID : Int64} {memberIDs : List Int64} :
    userID ∈ creationMembers ownerID memberIDs ↔
      userID = ownerID ∨ (userID ∈ memberIDs ∧ userID ≠ 0) := by
  -- the loop adds to any list of members it has so far
  have hloop : ∀ members : List Int64, userID ∈ memberIDs.foldl
        (fun members id => if id = 0 ∨ id ∈ members then members else members ++ [id]) members ↔
          userID ∈ members ∨ (userID ∈ memberIDs ∧ userID ≠ 0) := by
    induction memberIDs with
    | nil => simp
    | cons id memberIDs ih =>
      intro members
      rw [foldl_cons, ih]
      by_cases hid : id = 0
      · grind
      · by_cases hmem : id ∈ members
        · grind
        · grind
  rw [creationMembers, hloop, mem_singleton]

theorem createGroup_cases (hwrite : fault.write = .none) (userID : Int64) (groupID name : String)
    (memberIDs : List Int64) (db : GroupTables) :
    (∃ e, GroupService.createGroup fault userID groupID name memberIDs db = (.error e, db)) ∨
    (∃ reply, (GroupService.createGroup fault userID groupID name memberIDs db).1 = .ok reply) ∧
      (∀ ownerID, ¬ db.IsOwner groupID ownerID) ∧
      (GroupService.createGroup fault userID groupID name memberIDs db).2.members.rows =
        db.members.rows ++
          (creationMembers userID memberIDs).map (GroupMember.mk groupID) := by
  unfold GroupService.createGroup NonokaIM.createGroup
  by_cases huser : userID = 0
  · exact .inl ⟨_, if_pos huser⟩
  by_cases hname : name = ""
  · exact .inl ⟨_, by rw [if_neg huser, if_pos hname]⟩
  by_cases htrim : trim name = ""
  · exact .inl ⟨_, by rw [if_neg huser, if_neg hname, if_pos htrim]; rfl⟩
  rw [if_neg huser, if_neg hname, if_neg htrim, hwrite]
  by_cases hundone : none.applied = false ∨ (∃ g ∈ db.groups.rows, g.groupID = groupID) ∨
      ∃ f ∈ (db.members.insertAll
        ((creationMembers userID memberIDs).map (GroupMember.mk groupID))).2, f ≠ .stored
  · exact .inl ⟨_, by simp only [if_pos hundone]; rfl⟩
  · right
    simp only [if_neg hundone]
    simp only [not_or, not_exists, not_and, not_not] at hundone
    obtain ⟨-, hnew, hstored⟩ := hundone
    exact ⟨⟨_, rfl⟩, fun ownerID howner => hnew _ howner rfl, Collection.rows_of_all_stored hstored⟩

end

section

variable {wide : Int → Int} {db : GroupTables} {call : GroupCall} {e : GroupAction}
  {groupID : String} {userID : Int64} (fault : GroupFault)

theorem tables_createGroup (userID : Int64) (groupID name : String) (memberIDs : List Int64) :
    (GroupService.createGroup fault userID groupID name memberIDs db).2 =
      if fault.write.applied then
        (GroupService.createGroup { fault with write := .none } userID groupID name memberIDs db).2
      else db := by
  simp only [GroupService.createGroup, NonokaIM.createGroup, apply_ite Prod.snd]
  cases fault.write with
  | none | lost => rfl
  | failed => simp [applied]

theorem tables_addGroupMember (userID : Int64) (groupID : String) (memberID : Int64) :
    (GroupService.addGroupMember fault userID groupID memberID db).2 =
      if fault.write.applied then
        (GroupService.addGroupMember { fault with write := .none } userID groupID memberID db).2
      else db := by
  -- the check does not look at the write
  have hcheck : checkAdd { fault with write := .none } userID groupID memberID db =
      checkAdd fault userID groupID memberID db := rfl
  unfold GroupService.addGroupMember
  rw [hcheck]
  cases checkAdd fault userID groupID memberID db with
  | error e => exact (ite_self db).symm
  | ok u => rfl

theorem tables_removeGroupMember (userID : Int64) (groupID : String) (memberID : Int64) :
    (GroupService.removeGroupMember fault userID groupID memberID db).2 =
      if fault.write.applied then
        (GroupService.removeGroupMember { fault with write := .none } userID groupID memberID db).2
      else db := by
  -- the check does not look at the write
  have hcheck : checkRemove { fault with write := .none } userID groupID memberID db =
      checkRemove fault userID groupID memberID db := rfl
  unfold GroupService.removeGroupMember
  rw [hcheck]
  cases checkRemove fault userID groupID memberID db with
  | error e => exact (ite_self db).symm
  | ok u => rfl

/-- Whether the answer to its write arrives makes no difference to what a call leaves. -/
theorem tables_handle (call : GroupCall) :
    (call.handle wide db).2 =
      if call.fault.write.applied then (call.answered.handle wide db).2 else db := by
  obtain ⟨claims, request, fault⟩ := call
  cases request with
  | createGroup groupID name memberIDs => exact tables_createGroup ..
  | addGroupMember groupID memberID => exact tables_addGroupMember ..
  | removeGroupMember groupID memberID => exact tables_removeGroupMember ..

theorem handle_error {err : ApiError} (hwrite : call.fault.write = .none)
    (h : (call.handle wide db).1 = .error err) : (call.handle wide db).2 = db := by
  obtain ⟨claims, request, fault⟩ := call
  cases request with
  | createGroup groupID name memberIDs =>
    simp only [handle] at h ⊢
    obtain ⟨e, hfailed⟩ | ⟨⟨reply, hok⟩, -⟩ := createGroup_cases hwrite
      (userID wide ⟨claims, .createGroup groupID name memberIDs, fault⟩)
      groupID name memberIDs db
    · rw [hfailed]
    · rw [hok] at h
      cases h
  | addGroupMember groupID memberID =>
    have hnone : fault.write = .none := hwrite
    simp only [handle, GroupService.addGroupMember, hnone] at h ⊢
    split at h
    · rfl
    · cases h
  | removeGroupMember groupID memberID =>
    have hnone : fault.write = .none := hwrite
    simp only [handle, GroupService.removeGroupMember, hnone] at h ⊢
    split at h
    · rfl
    · cases h

theorem isMember_createGroup {name : String} {memberIDs : List Int64}
    (hrequest : call.request = .createGroup groupID name memberIDs)
    (hwrite : call.fault.write = .none) (hok : call.Succeeds wide db) :
    (∀ ownerID, ¬ db.IsOwner groupID ownerID) ∧
    ∀ g u, (call.handle wide db).2.IsMember g u ↔
      (g = groupID ∧ (u = call.userID wide ∨ (u ∈ memberIDs ∧ u ≠ 0))) ∨ db.IsMember g u := by
  simp only [Succeeds, handle, hrequest] at hok ⊢
  obtain ⟨e, hfailed⟩ | ⟨-, hnew, hmembers⟩ := createGroup_cases hwrite
    (call.userID wide) groupID name memberIDs db
  · rw [hfailed] at hok
    cases hok
  · refine ⟨hnew, fun g u => ?_⟩
    rw [IsMember, hmembers]
    simp only [mem_append, mem_map, GroupMember.mk.injEq, mem_creationMembers, IsMember]
    grind

theorem isMember_addGroupMember {memberID : Int64}
    (hrequest : call.request = .addGroupMember groupID memberID) (hok : call.Succeeds wide db) :
    (db.IsOwner groupID (call.userID wide) ∨ db.IsMember groupID (call.userID wide)) ∧
    ∀ g u, (call.handle wide db).2.IsMember g u ↔
      (g = groupID ∧ u = memberID) ∨ db.IsMember g u := by
  simp only [Succeeds, handle, hrequest] at hok ⊢
  obtain ⟨hcheck, htables⟩ := (addGroupMember_checks ..).of_ok hok
  refine ⟨checkAdd_ok hcheck, fun g u => ?_⟩
  rw [IsMember, htables, mem_addMember, GroupMember.mk.injEq]
  exact Iff.rfl

theorem isMember_removeGroupMember {memberID : Int64}
    (hrequest : call.request = .removeGroupMember groupID memberID) (hok : call.Succeeds wide db) :
    (call.userID wide = memberID ∨ db.IsOwner groupID (call.userID wide)) ∧
    ∀ g u, (call.handle wide db).2.IsMember g u ↔
      db.IsMember g u ∧ ¬ (g = groupID ∧ u = memberID) := by
  simp only [Succeeds, handle, hrequest] at hok ⊢
  obtain ⟨hcheck, htables⟩ := (removeGroupMember_checks ..).of_ok hok
  refine ⟨checkRemove_ok hcheck, fun g u => ?_⟩
  rw [IsMember, htables, mem_removeMember, ne_eq, GroupMember.mk.injEq]
  exact Iff.rfl

/-- A call whose write is answered lets in and puts out whom it may, if it succeeds. -/
theorem isMember_answered (hwrite : call.fault.write = .none) :
    (call.handle wide db).2.IsMember groupID userID ↔
      (call.Succeeds wide db ∧ call.MayAdmit wide db groupID userID) ∨
        (db.IsMember groupID userID ∧
          ¬ (call.Succeeds wide db ∧ call.MayRemove wide db groupID userID)) := by
  cases hres : (call.handle wide db).1 with
  | error err =>
    have hfails : ¬ call.Succeeds wide db := by simp [Succeeds, hres]
    simp [handle_error hwrite hres, hfails]
  | ok u =>
    have hok : call.Succeeds wide db := hres
    cases hrequest : call.request with
    | createGroup newID name memberIDs =>
      obtain ⟨hnew, hmember⟩ := isMember_createGroup hrequest hwrite hok
      simp [hmember, hok, MayAdmit, MayRemove, hrequest, hnew]
    | addGroupMember group memberID =>
      obtain ⟨hallowed, hmember⟩ := isMember_addGroupMember hrequest hok
      simp [hmember, hok, MayAdmit, MayRemove, hrequest, hallowed]
    | removeGroupMember group memberID =>
      obtain ⟨hallowed, hmember⟩ := isMember_removeGroupMember hrequest hok
      simp [hmember, hok, MayAdmit, MayRemove, hrequest, hallowed]

theorem isMember_step :
    (e.step wide db).IsMember groupID userID ↔
      Joins wide db e groupID userID ∨
        (db.IsMember groupID userID ∧ ¬ Leaves wide db e groupID userID) := by
  cases e with
  | registered newID => simp [step, IsMember, Joins, Leaves]
  | request call =>
    rw [step, Joins, Leaves, tables_handle, TakesEffect]
    cases call.fault.write.applied with
    | false => simp
    | true =>
      simp only [if_true, true_and]
      have hwrite : call.answered.fault.write = .none := rfl
      exact isMember_answered hwrite

structure MembershipAuthorised (wide : Int → Int) (db : GroupTables) (e : GroupAction) : Prop where
  joined : ∀ groupID userID, ¬ db.IsMember groupID userID →
    (e.step wide db).IsMember groupID userID → Joins wide db e groupID userID
  left : ∀ groupID userID, db.IsMember groupID userID →
    ¬ (e.step wide db).IsMember groupID userID → Leaves wide db e groupID userID
  failed : ∀ call err, e = .request call → (call.handle wide db).1 = .error err →
    call.fault.write ≠ .lost → e.step wide db = db

theorem membershipAuthorised (wide : Int → Int) (db : GroupTables) (e : GroupAction) :
    MembershipAuthorised wide db e where
  joined := by
    intro groupID userID hbefore hafter
    obtain hjoins | ⟨hmember, -⟩ := isMember_step.mp hafter
    · exact hjoins
    · exact absurd hmember hbefore
  left := by
    intro groupID userID hbefore hafter
    by_contra hstays
    exact hafter (isMember_step.mpr (.inr ⟨hbefore, hstays⟩))
  failed := by
    rintro call err rfl herr hanswered
    cases hwrite : call.fault.write with
    | none => exact handle_error hwrite herr
    | failed => rw [step, tables_handle, hwrite, applied, if_neg Bool.false_ne_true]
    | lost => exact absurd hwrite hanswered

end

/-! ## Histories -/

/-- Every request of every history changes memberships only as it may. After it the members of a
group are the users who were let in by some request, by one who was its owner or a member then, and
have not been put out since. -/
theorem memberships_authorised (wide : Int → Int) (db : GroupTables) (es : List GroupAction) :
    Along (step wide) (MembershipAuthorised wide) db es ∧
    ∀ groupID userID, (run (step wide) db es).IsMember groupID userID ↔
      (db.IsMember groupID userID ∧
        Along (step wide) (fun db e => ¬ Leaves wide db e groupID userID) db es) ∨
      ∃ before e later, es = before ++ e :: later ∧
        Joins wide (run (step wide) db before) e groupID userID ∧
        Along (step wide) (fun db e => ¬ Leaves wide db e groupID userID)
          (run (step wide) db (before ++ [e])) later := by
  refine ⟨along_of_forall (membershipAuthorised wide) db es, fun groupID userID => ?_⟩
  exact latch_run_iff (p := fun db : GroupTables => db.IsMember groupID userID)
    (fun _ _ (_ : True) => trivial) (fun db e _ => isMember_step) trivial

/-- An addition whose answer is lost fails and lets the user in all the same. -/
theorem lost_answer_admits :
    (handle id ⟨some ⟨1, "u1", ""⟩, .addGroupMember "g" 3, { write := .lost }⟩ pairOfUsers).1 =
        .error (.internalServer "DB_ERROR" "failed to add member") ∧
      ¬ pairOfUsers.IsMember "g" 3 ∧
      (step id pairOfUsers (.request
        ⟨some ⟨1, "u1", ""⟩, .addGroupMember "g" 3, { write := .lost }⟩)).IsMember "g" 3 := by
  unfold IsMember
  decide

/-- A user who is no member cannot let themselves in. -/
example : (handle id ⟨some ⟨3, "u3", ""⟩, .addGroupMember "g" 3, {}⟩ pairOfUsers).1 =
    .error (.forbidden "GROUP_MEMBER_REQUIRED" "only group members can add members") := by
  decide

end NonokaIM
