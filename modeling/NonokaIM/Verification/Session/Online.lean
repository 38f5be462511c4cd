import NonokaIM.Library.GuardedRun
import NonokaIM.Model.Session

/-! # The online flag and the devices

A node that takes its last device out deletes the flag when it set it last. -/

namespace NonokaIM

open GuardedRun SessionManager

inductive SessionCall where
  | setSession (nodeID : String) (userID : Int) (deviceID connID : String)
  | delSession (nodeID : String) (userID : Int) (deviceID connID : String)

def sessionStep (s : Sessions) : SessionCall → Sessions
  | .setSession nodeID userID deviceID connID =>
    (setSession ⟨nodeID⟩ userID deviceID connID s).1
  | .delSession nodeID userID deviceID connID =>
    (delSession ⟨nodeID⟩ userID deviceID connID s).1

def noSessions : Sessions := fun _ => {}

/-- A user is online exactly when some device has an entry. -/
def OnlineAgrees (s : Sessions) : Prop :=
  ∀ userID, isOnline userID s = true ↔ (getDevices userID s).entries ≠ []

/-- A call that takes out the last entry of a user finds the user's key naming its own node, and
one that leaves entries does not delete the key. -/
def KeepsOnline (s : Sessions) : SessionCall → Prop
  | .setSession .. => True
  | .delSession nodeID userID deviceID connID =>
    Owns ⟨nodeID⟩ userID deviceID connID s →
      if ((s userID).devices.erase deviceID).entries = [] then (s userID).node = some nodeID
      else (s userID).node = some nodeID →
        hasLocal ⟨nodeID⟩ ((s userID).devices.erase deviceID) = true

theorem onlineAgrees_update_iff {s : Sessions} (h : OnlineAgrees s) (userID : Int)
    (session : UserSession) :
    OnlineAgrees (Function.update s userID session) ↔
      (session.node.isSome = true ↔ session.devices.entries ≠ []) := by
  constructor
  · intro hall
    simpa [isOnline, getSession, getDevices] using hall userID
  · intro huser other
    by_cases ho : other = userID
    · subst ho
      simpa [isOnline, getSession, getDevices] using huser
    · simpa [isOnline, getSession, getDevices, ho] using h other

variable {devices : AList (fun _ : String => String)}

theorem entries_ne_nil_of_lookup {d v : String}
    (h : devices.lookup d = some v) : devices.entries ≠ [] := by
  intro hnil
  obtain rfl : devices = ∅ := AList.ext hnil
  simp at h

theorem entries_insert_ne_nil (devices : AList (fun _ : String => String)) (d v : String) :
    (devices.insert d v).entries ≠ [] :=
  entries_ne_nil_of_lookup (devices.lookup_insert)

theorem hasLocal_of_nil (m : SessionManager)
    (h : devices.entries = []) : m.hasLocal devices = false := by
  simp [hasLocal, h]

theorem onlineAgrees_step_iff {s : Sessions} (h : OnlineAgrees s) (call : SessionCall) :
    OnlineAgrees (sessionStep s call) ↔ KeepsOnline s call := by
  cases call with
  | setSession nodeID userID deviceID connID =>
    simp only [sessionStep, setSession, KeepsOnline, iff_true]
    apply (onlineAgrees_update_iff h userID _).mpr
    exact ⟨fun _ => entries_insert_ne_nil _ _ _, fun _ => rfl⟩
  | delSession nodeID userID deviceID connID =>
    simp only [sessionStep, delSession, KeepsOnline]
    by_cases hown : Owns ⟨nodeID⟩ userID deviceID connID s
    · -- the entry is there, so the key was set
      have hsome : (s userID).node.isSome = true :=
        (h userID).mpr (entries_ne_nil_of_lookup hown)
      rw [if_pos hown, onlineAgrees_update_iff h]
      by_cases hnil : ((s userID).devices.erase deviceID).entries = []
      · by_cases hnode : (s userID).node = some nodeID
        · simp [hown, hnil, hnode, hasLocal_of_nil]
        · simp [hown, hnil, hnode, Option.isSome_iff_ne_none.mp hsome]
      · by_cases hnode : (s userID).node = some nodeID
        · simp [hown, hnil, hnode]
        · simp [hown, hnil, hnode, hsome]
    · simp [hown, h]

/-- Over any sequence of calls, by any nodes for any users, devices and connections, the flag
agrees with the devices at every moment exactly when every call keeps it so. -/
theorem online_agrees_with_devices_iff (calls : List SessionCall) :
    (∀ done, done <+: calls → OnlineAgrees (run sessionStep noSessions done)) ↔
      Along sessionStep KeepsOnline noSessions calls := by
  have hinit : OnlineAgrees noSessions := by
    intro userID
    simp [isOnline, getSession, getDevices, noSessions]
  have hstep : ∀ s call, OnlineAgrees s →
      (OnlineAgrees (sessionStep s call) ↔ KeepsOnline s call) :=
    fun s call h => onlineAgrees_step_iff h call
  rw [good_always_iff_along, and_iff_right hinit]
  exact along_congr hstep (fun _ _ _ hnext => hnext) hinit

def phoneAndLaptop : List SessionCall :=
  [.setSession "a" 1 "phone" "c1", .setSession "b" 1 "laptop" "c2", .delSession "b" 1 "laptop" "c2"]

/-- The user goes offline with the laptop, although the phone is still served. -/
theorem offline_with_a_device : ¬ OnlineAgrees (run sessionStep noSessions phoneAndLaptop) := by
  intro h
  have hphone : (getDevices 1 (run sessionStep noSessions phoneAndLaptop)).entries ≠ [] := by
    decide
  have honline := (h 1).mpr hphone
  exact absurd honline (by decide)

end NonokaIM
