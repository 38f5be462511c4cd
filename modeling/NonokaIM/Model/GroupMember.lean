import Mathlib.Data.List.Sort
import NonokaIM.Library.DocumentStore
import NonokaIM.Model.Authz

/-! Group membership: the table in PostgreSQL, and the worker's service that reads it through
sets in Redis. -/

namespace NonokaIM

open DocumentStore

structure GroupMember where
  groupID : String
  userID : Int64
  deriving DecidableEq

/-- The unique index on group and user, which are all of the row. -/
def groupMemberKeys (r : GroupMember) : List GroupMember := [r]

abbrev GroupMembers := Collection groupMemberKeys

def getMembers (groupID : String) (table : GroupMembers) : List Int64 :=
  ((table.rows.filter fun r => r.groupID = groupID).map GroupMember.userID).insertionSort (· ≤ ·)

def addMember (groupID : String) (userID : Int64) (table : GroupMembers) : GroupMembers :=
  table.insert ⟨groupID, userID⟩

def removeMember (groupID : String) (userID : Int64) (table : GroupMembers) : GroupMembers :=
  table.delete fun r => r.groupID = groupID ∧ r.userID = userID

/-- Add a member to a set. A set without members is no key at all. -/
def sAdd (set : List String) (member : String) : List String :=
  if member ∈ set then set else set ++ [member]

def sRem (set : List String) (member : String) : List String := set.filter (· ≠ member)

def memberText (userID : Int64) : String := toString userID.toInt

def parseMemberIDs (members : List String) : List Int64 :=
  members.filterMap fun m => (parseInt64 m.toList).map Int64.ofInt

/-- The table, and the cached set of each group under `im:group:members:<id>`. -/
structure MemberState where
  members : GroupMembers := .empty
  cache : String → List String := fun _ => []

/-- What goes wrong in one call. Without a Redis client both cache operations are skipped as if they
failed. -/
structure MemberFault where
  cacheRead : Bool := false
  cacheWrite : Bool := false
  database : Option String := none

def MemberFault.none : MemberFault := {}

def MemberState.setCache (s : MemberState) (groupID : String) (set : List String) : MemberState :=
  { s with cache := Function.update s.cache groupID set }

/-- The members of a group, from the cache if it holds any and from the table otherwise. What is
read from the table is cached. -/
def getGroupMembers (fault : MemberFault) (groupID : String) (s : MemberState) :
    Except String (List Int64) × MemberState :=
  let members := if fault.cacheRead then [] else s.cache groupID
  if members ≠ [] then (.ok (parseMemberIDs members), s)
  else
    match fault.database with
    | some e => (.error ("get group members: query group members: " ++ e), s)
    | none =>
      let ids := getMembers groupID s.members
      (.ok ids, if fault.cacheWrite then s
        else s.setCache groupID ((ids.map memberText).foldl sAdd (s.cache groupID)))

def addGroupMember (fault : MemberFault) (groupID : String) (userID : Int64) (s : MemberState) :
    Except String Unit × MemberState :=
  match fault.database with
  | some e => (.error ("add group member: add group member: " ++ e), s)
  | none =>
    let s' := { s with members := addMember groupID userID s.members }
    (.ok (), if fault.cacheWrite then s'
      else s'.setCache groupID (sAdd (s.cache groupID) (memberText userID)))

/-- The cache comes first, also when the row is not removed after it. -/
def removeGroupMember (fault : MemberFault) (groupID : String) (userID : Int64)
    (s : MemberState) : Except String Unit × MemberState :=
  let s' := if fault.cacheWrite then s
    else s.setCache groupID (sRem (s.cache groupID) (memberText userID))
  match fault.database with
  | some e => (.error ("remove group member: remove group member: " ++ e), s')
  | none => (.ok (), { s' with members := removeMember groupID userID s'.members })

end NonokaIM
