import Mathlib.Data.List.DropRight
import NonokaIM.Model.AuthService
import NonokaIM.Model.GroupMember

/-! The API calls that create a group or change its members. They write the tables, and nothing of
the sets that the workers cache. -/

namespace NonokaIM

open DocumentStore

structure Group where
  groupID : String
  ownerID : Int64

/-- The tables behind the group API; of `users` the ids. -/
structure GroupTables where
  groups : Collection (fun g : Group => [g.groupID]) := .empty
  users : List Int64 := []
  members : GroupMembers := .empty

structure GroupFault where
  getGroup : Bool := false
  listMembers : Bool := false
  write : CallFault := .none

/-! ## The repository -/

def getGroup (groupID : String) (fails : Bool) (db : GroupTables) : Except ApiError Group :=
  if fails then .error (.internalServer "DB_ERROR" "failed to get group")
  else
    match db.groups.rows.find? fun g => g.groupID = groupID with
    | none => .error (.notFound "GROUP_NOT_FOUND" "group not found")
    | some group => .ok group

def listMembers (groupID : String) (fails : Bool) (db : GroupTables) :
    Except ApiError (List Int64) :=
  if fails then .error (.internalServer "DB_ERROR" "failed to list members")
  else
    .ok (((db.members.rows.filter fun r => r.groupID = groupID).map GroupMember.userID).filter
      fun id => id ∈ db.users)

def isTrimmed (c : Char) : Bool := c = ' ' || c = '\t' || c = '\n' || c = '\r'

def trim (s : String) : String :=
  .ofList ((s.toList.dropWhile isTrimmed).rdropWhile isTrimmed)

/-- The first members of a group: the owner, and then each id of the request once. -/
def creationMembers (ownerID : Int64) (memberIDs : List Int64) : List Int64 :=
  memberIDs.foldl
    (fun members id => if id = 0 ∨ id ∈ members then members else members ++ [id]) [ownerID]

/-- Group and members are written in one transaction, undone by a failing statement or a refused
row; the answer to its commit can be lost. `groupID` is the ULID that was drawn. -/
def createGroup (groupID name : String) (ownerID : Int64) (memberIDs : List Int64)
    (fault : CallFault) (db : GroupTables) : Except ApiError Group × GroupTables :=
  if trim name = "" then (.error (.badRequest "INVALID_NAME" "group name is required"), db)
  else
    let group : Group := ⟨groupID, ownerID⟩
    let inserted := db.members.insertAll
      ((creationMembers ownerID memberIDs).map (GroupMember.mk groupID))
    if fault.applied = false ∨ (∃ g ∈ db.groups.rows, g.groupID = groupID) ∨
        ∃ f ∈ inserted.2, f ≠ .stored then
      (.error (.internalServer "DB_ERROR" "failed to create group"), db)
    else
      (if fault.reported then .error (.internalServer "DB_ERROR" "failed to create group")
        else .ok group,
        { db with groups := db.groups.insert group, members := inserted.1 })

namespace GroupService

/-! ## The service -/

structure CreateGroupReply where
  groupID : String
  topic : String

def createGroup (fault : GroupFault) (userID : Int64) (groupID name : String)
    (memberIDs : List Int64) (db : GroupTables) :
    Except ApiError CreateGroupReply × GroupTables :=
  if userID = 0 then (.error (.unauthorized "AUTH_REQUIRED" "authentication required"), db)
  else if name = "" then (.error (.badRequest "INVALID_NAME" "group name is required"), db)
  else
    let created := NonokaIM.createGroup groupID name userID memberIDs fault.write db
    (created.1.map fun group => ⟨group.groupID, "grp_" ++ group.groupID⟩, created.2)

variable (fault : GroupFault) (userID : Int64) (groupID : String) (memberID : Int64)

def checkRequest : Except ApiError Unit :=
  if userID = 0 then .error (.unauthorized "AUTH_REQUIRED" "authentication required")
  else if groupID = "" ∨ memberID = 0 then
    .error (.badRequest "INVALID_PARAMS" "group id and user id are required")
  else .ok ()

/-- Owner and members may add; the owner need not be a member. -/
def checkAdd (db : GroupTables) : Except ApiError Unit := do
  checkRequest userID groupID memberID
  let group ← getGroup groupID fault.getGroup db
  let members ← listMembers groupID fault.listMembers db
  if group.ownerID ≠ userID ∧ userID ∉ members then
    .error (.forbidden "GROUP_MEMBER_REQUIRED" "only group members can add members")

/-- The owner may remove anybody, a member only themselves. -/
def checkRemove (db : GroupTables) : Except ApiError Unit := do
  checkRequest userID groupID memberID
  let group ← getGroup groupID fault.getGroup db
  if group.ownerID ≠ userID ∧ memberID ≠ userID then
    .error (.forbidden "GROUP_REMOVE_FORBIDDEN"
      "only the group owner or the member can remove this user")
  else if memberID = group.ownerID ∧ userID ≠ group.ownerID then
    .error (.forbidden "GROUP_OWNER_REQUIRED" "the group owner cannot be removed by another member")

def addGroupMember (db : GroupTables) : Except ApiError Unit × GroupTables :=
  match checkAdd fault userID groupID memberID db with
  | .error e => (.error e, db)
  | .ok () =>
    (if fault.write.reported then .error (.internalServer "DB_ERROR" "failed to add member")
      else .ok (),
      if fault.write.applied then { db with members := addMember groupID memberID db.members }
      else db)

def removeGroupMember (db : GroupTables) : Except ApiError Unit × GroupTables :=
  match checkRemove fault userID groupID memberID db with
  | .error e => (.error e, db)
  | .ok () =>
    (if fault.write.reported then .error (.internalServer "DB_ERROR" "failed to remove member")
      else .ok (),
      if fault.write.applied then { db with members := removeMember groupID memberID db.members }
      else db)

end GroupService

inductive GroupRequest where
  | createGroup (groupID name : String) (memberIDs : List Int64)
  | addGroupMember (groupID : String) (memberID : Int64)
  | removeGroupMember (groupID : String) (memberID : Int64)

/-- A request, the claims of the token it comes with, and how its statements end. -/
structure GroupCall where
  claims : Option AccessClaims
  request : GroupRequest
  fault : GroupFault := {}

/-- The user that a request is made by: all that the service knows of them is the id in the
claims. -/
def GroupCall.userID (wide : Int → Int) (call : GroupCall) : Int64 :=
  .ofInt (extractUserIDFromContext wide call.claims)

def GroupCall.handle (wide : Int → Int) (call : GroupCall) (db : GroupTables) :
    Except ApiError Unit × GroupTables :=
  let userID := call.userID wide
  match call.request with
  | .createGroup groupID name memberIDs =>
    let created := GroupService.createGroup call.fault userID groupID name memberIDs db
    (created.1.map fun _ => (), created.2)
  | .addGroupMember groupID memberID =>
    GroupService.addGroupMember call.fault userID groupID memberID db
  | .removeGroupMember groupID memberID =>
    GroupService.removeGroupMember call.fault userID groupID memberID db

inductive GroupAction where
  | request (call : GroupCall)
  | registered (userID : Int64)

def GroupAction.step (wide : Int → Int) (db : GroupTables) : GroupAction → GroupTables
  | .request call => (call.handle wide db).2
  | .registered userID => { db with users := db.users ++ [userID] }

end NonokaIM
