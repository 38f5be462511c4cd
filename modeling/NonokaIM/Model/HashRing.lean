import NonokaIM.Library.AddRemove
import NonokaIM.Library.CyclicSearch
import NonokaIM.Library.GoMap
import NonokaIM.Library.XxHash64

/-! The consistent hash ring (`internal/gateway/registry.go`) and the dispatch service
(`internal/service/dispatch.go`), which runs it with `xxhashSum64`. -/

namespace NonokaIM

def defaultVirtualReplicas : ℕ := 150

def xxhashSum64 (s : String) : ℕ := (XxHash64.sum64String s).toNat

/-- A ring of hashes, ascending, with the node of each. -/
structure ConsistentHash where
  replicas : ℕ
  ring : List ℕ := []
  nodes : GoMap ℕ String := ∅
  nodeSet : GoMap String Unit := ∅

def newConsistentHash (replicas : Int) : ConsistentHash where
  replicas := if replicas ≤ 0 then defaultVirtualReplicas else replicas.toNat

variable (hash : String → ℕ)

def virtualPoint (node : String) (i : ℕ) : ℕ :=
  hash (node ++ ":" ++ toString i)

namespace ConsistentHash

def addPoint (node : String) (ch : ConsistentHash) (i : ℕ) : ConsistentHash :=
  let h := virtualPoint hash node i
  { ch with ring := ch.ring ++ [h], nodes := ch.nodes.insert h node }

def add (ch : ConsistentHash) (node : String) : ConsistentHash :=
  if node ∈ ch.nodeSet then ch
  else
    let ch := { ch with nodeSet := ch.nodeSet.insert node () }
    let ch := (List.range ch.replicas).foldl (addPoint hash node) ch
    { ch with ring := ch.ring.insertionSort (· ≤ ·) }

/-- The node of a hash. A hash that is not in the map reads as the empty string. -/
def nodeAt (nodes : GoMap ℕ String) (h : ℕ) : String := (nodes.lookup h).getD ""

def removePoint (node : String) (acc : List ℕ × GoMap ℕ String) (h : ℕ) : List ℕ × GoMap ℕ String :=
  if nodeAt acc.2 h ≠ node then (acc.1 ++ [h], acc.2) else (acc.1, acc.2.erase h)

def remove (ch : ConsistentHash) (node : String) : ConsistentHash :=
  if node ∈ ch.nodeSet then
    let (newRing, nodes) := ch.ring.foldl (removePoint node) ([], ch.nodes)
    { ch with nodeSet := ch.nodeSet.erase node, ring := newRing, nodes := nodes }
  else ch

def get (ch : ConsistentHash) (key : String) : String :=
  match CyclicSearch.nextIn ch.ring (hash key) with
  | none => ""
  | some h => nodeAt ch.nodes h

abbrev RingCall := AddRemove.Call String

def step (ch : ConsistentHash) : RingCall → ConsistentHash
  | .add node => ch.add hash node
  | .remove node => ch.remove node

def run (ch : ConsistentHash) (calls : List RingCall) : ConsistentHash :=
  calls.foldl (step hash) ch

end ConsistentHash

structure GatewayNode where
  nodeID : String
  url : String
  connCount : Int

def ringOf (nodes : List GatewayNode) : ConsistentHash :=
  nodes.foldl (fun ch n => ch.add hash n.nodeID) (newConsistentHash defaultVirtualReplicas)

def selectByConsistentHash (nodes : List GatewayNode) (key : String) : Option GatewayNode :=
  match nodes with
  | [] => none
  | [n] => some n
  | n :: ns =>
    let selectedID := (ringOf hash (n :: ns)).get hash key
    -- the first node stands in for an id that is not in the list
    some (((n :: ns).find? fun m => m.nodeID = selectedID).getD n)

end NonokaIM
