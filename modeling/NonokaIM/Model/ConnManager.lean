import Mathlib.Algebra.GroupWithZero.Nat
import NonokaIM.Library.AddRemove
import NonokaIM.Library.GoMap
import NonokaIM.Library.GuardedRun

/-! The connection manager with its 32 shards. A connection is stored in the shard of its user. -/

namespace NonokaIM

/-- A connection as the manager sees it: its id, and the user and the device that it has since its
authentication. -/
structure ConnRef where
  connID : String
  userID : Int
  deviceID : String
  deriving DecidableEq

def shardCount : ℕ := 32

theorem shardCount_pos : 0 < shardCount := Nat.zero_lt_succ _

def fnvByte (h : UInt32) (b : UInt32) : UInt32 := (h ^^^ b) * 16777619

def hashUserBytes : ℕ → UInt64 → UInt32 → UInt32
  | 0, _, h => h
  | n + 1, uid, h => hashUserBytes n (uid >>> 8) (fnvByte h (uid &&& 0xFF).toUInt32)

def shardIndex (h : UInt32) : Fin shardCount := ⟨h.toNat % shardCount, Nat.mod_lt _ shardCount_pos⟩

def getShard (userID : Int) : Fin shardCount :=
  if userID = 0 then ⟨0, shardCount_pos⟩
  else shardIndex (hashUserBytes 8 (UInt64.ofInt userID) 2166136261)

def getShardByConnID (connID : String) : Fin shardCount :=
  shardIndex (connID.toUTF8.data.toList.foldl (fun h b => fnvByte h b.toUInt32) 2166136261)

structure ConnShard where
  conns : GoMap String ConnRef := ∅
  users : GoMap Int (GoMap String Unit) := ∅

structure ShardedManager where
  shards : Fin shardCount → ConnShard := fun _ => {}

namespace ConnShard

def userConns (s : ConnShard) (userID : Int) : List ConnRef :=
  match s.users.lookup userID with
  | none => []
  | some ids => ids.keys.filterMap fun connID => s.conns.lookup connID

def add (s : ConnShard) (c : ConnRef) : ConnShard where
  conns := s.conns.insert c.connID c
  users := s.users.insert c.userID (((s.users.lookup c.userID).getD ∅).insert c.connID ())

def removeID (users : GoMap Int (GoMap String Unit)) (userID : Int) (connID : String) :
    GoMap Int (GoMap String Unit) :=
  match users.lookup userID with
  | none => users
  | some ids =>
    if (ids.erase connID).keys = [] then users.erase userID
    else users.insert userID (ids.erase connID)

def remove (s : ConnShard) (c : ConnRef) : ConnShard where
  conns := s.conns.erase c.connID
  users := if c.userID = 0 then s.users else removeID s.users c.userID c.connID

end ConnShard

namespace ShardedManager

variable (m : ShardedManager)

def setShard (i : Fin shardCount) (s : ConnShard) : ShardedManager where
  shards := Function.update m.shards i s

/-- Register a connection; the result is the older connections of the same user and device. -/
def add (c : ConnRef) : List ConnRef × ShardedManager :=
  if c.userID = 0 then ([], m)
  else
    let shard := m.shards (getShard c.userID)
    ((shard.userConns c.userID).filter fun old =>
        old.deviceID = c.deviceID ∧ old.connID ≠ c.connID,
      m.setShard (getShard c.userID) (shard.add c))

def remove (c : ConnRef) : ShardedManager :=
  m.setShard (getShard c.userID) ((m.shards (getShard c.userID)).remove c)

def getByConnID (connID : String) : Option ConnRef :=
  (m.shards (getShardByConnID connID)).conns.lookup connID

def getAll (userID : Int) : List ConnRef := (m.shards (getShard userID)).userConns userID

def conns : List ConnRef := Spread.all fun i => GoMap.values (m.shards i).conns

/-- The connections for which `f` is called, up to the first for which it is false. -/
def visits (f : ConnRef → Bool) : List ConnRef → List ConnRef
  | [] => []
  | c :: cs => if f c then c :: visits f cs else [c]

def range (f : ConnRef → Bool) : List ConnRef := visits f m.conns

def count : ℕ := ((List.finRange shardCount).map fun i => (m.shards i).conns.keys.length).sum

def userCount : ℕ := ((List.finRange shardCount).map fun i => (m.shards i).users.keys.length).sum

end ShardedManager

abbrev ManagerCall := AddRemove.Call ConnRef

namespace ShardedManager

def step (m : ShardedManager) : ManagerCall → ShardedManager
  | .add c => (m.add c).2
  | .remove c => m.remove c

def run (calls : List ManagerCall) : ShardedManager := GuardedRun.run step {} calls

end ShardedManager

end NonokaIM
