import Mathlib.Data.List.AList

/-! The session index in Redis: for every user the node that set a session last, and a hash from
devices to node and connection. Expiry is left out. -/

namespace NonokaIM

/-- The two keys of a user: `im:session:<id>` and the hash `im:session:<id>:devices`. -/
structure UserSession where
  node : Option String := none
  devices : AList (fun _ : String => String) := ∅

abbrev Sessions := Int → UserSession

inductive SessionAction where
  | set
  | del
  deriving DecidableEq

/-- What is published on `im:session:changes`. -/
structure SessionChangeEvent where
  userID : Int
  deviceID : String
  action : SessionAction
  nodeID : String

def sessionValue (nodeID connID : String) : String := nodeID ++ "|" ++ connID

/-- The node of a session value; a value without a separator is a node of its own. -/
def sessionNodeID (value : String) : String := String.ofList (value.toList.takeWhile (· ≠ '|'))

structure SessionManager where
  nodeID : String

namespace SessionManager

variable (m : SessionManager)

def setSession (userID : Int) (deviceID connID : String) (s : Sessions) :
    Sessions × SessionChangeEvent :=
  (Function.update s userID
    { node := some m.nodeID
      devices := (s userID).devices.insert deviceID (sessionValue m.nodeID connID) },
    { userID, deviceID, action := .set, nodeID := m.nodeID })

def isLocal (value : String) : Bool :=
  value = m.nodeID || (m.nodeID ++ "|").toList.isPrefixOf value.toList

def hasLocal (devices : AList (fun _ : String => String)) : Bool :=
  devices.entries.any fun entry => m.isLocal entry.2

/-- The entry that `delSession` takes out still is the one of this connection. -/
def Owns (userID : Int) (deviceID connID : String) (s : Sessions) : Prop :=
  (s userID).devices.lookup deviceID = some (sessionValue m.nodeID connID)
  deriving Decidable

/-- Remove a session if it is this connection's own. The user's key goes with it when it names
this node and no device of this node is left. -/
def delSession (userID : Int) (deviceID connID : String) (s : Sessions) :
    Sessions × Option SessionChangeEvent :=
  if m.Owns userID deviceID connID s then
    let devices := (s userID).devices.erase deviceID
    let node :=
      if (s userID).node = some m.nodeID ∧ ¬ m.hasLocal devices then none else (s userID).node
    (Function.update s userID { node, devices },
      some { userID, deviceID, action := .del, nodeID := m.nodeID })
  else (s, none)

end SessionManager

def getSession (userID : Int) (s : Sessions) : Option String := (s userID).node

def getDevices (userID : Int) (s : Sessions) : AList (fun _ : String => String) :=
  (s userID).devices

def isOnline (userID : Int) (s : Sessions) : Bool := (getSession userID s).isSome

end NonokaIM
