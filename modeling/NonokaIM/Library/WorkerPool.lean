import Mathlib.Data.Fin.Basic
import Mathlib.Data.List.FinRange
import NonokaIM.Library.GuardedRun

/-! Workers that wait for a task of a bounded channel or a stop signal. When both are ready the
choice is free, so that each has an event of its own. -/

namespace WorkerPool

open List Function

variable {τ : Type*} {n : ℕ}

inductive Worker (τ : Type*) where
  | waiting
  | busy (task : τ)
  | gone
  deriving DecidableEq

/-- `taken` lists the tasks that workers have received, in order. -/
structure Pool (τ : Type*) (n : ℕ) where
  queue : List τ := []
  workers : Fin n → Worker τ := fun _ => .waiting
  stopped : Bool := false
  closed : Bool := false
  taken : List τ := []

inductive Event (τ : Type*) (n : ℕ) where
  | submit (task : τ)
  | take (w : Fin n)
  | finish (w : Fin n)
  | leaveStopped (w : Fin n)
  | leaveClosed (w : Fin n)
  | stop
  | close

/-- One step. An event that is not possible leaves the pool as it is. -/
def step (capacity : ℕ) (s : Pool τ n) : Event τ n → Pool τ n
  | .submit task =>
    if s.closed = false ∧ s.queue.length < capacity then { s with queue := s.queue ++ [task] }
    else s
  | .take w =>
    match s.workers w, s.queue with
    | .waiting, task :: queue =>
      { s with
        queue := queue
        workers := update s.workers w (.busy task)
        taken := s.taken ++ [task] }
    | _, _ => s
  | .finish w =>
    match s.workers w with
    | .busy _ => { s with workers := update s.workers w .waiting }
    | _ => s
  | .leaveStopped w =>
    match s.workers w, s.stopped with
    | .waiting, true => { s with workers := update s.workers w .gone }
    | _, _ => s
  | .leaveClosed w =>
    match s.workers w, s.queue, s.closed with
    | .waiting, [], true => { s with workers := update s.workers w .gone }
    | _, _, _ => s
  | .stop => { s with stopped := true }
  | .close => if s.stopped then { s with closed := true } else s

def run (capacity : ℕ) (s : Pool τ n) (es : List (Event τ n)) : Pool τ n :=
  GuardedRun.run (step capacity) s es

/-- The tasks that were accepted so far, in order. -/
def Pool.accepted (s : Pool τ n) : List τ := s.taken ++ s.queue

/-- Shutting down is over. -/
structure Pool.Returned (s : Pool τ n) : Prop where
  stopped : s.stopped = true
  closed : s.closed = true
  gone : ∀ w, s.workers w = .gone

variable (capacity : ℕ) (s : Pool τ n)

theorem taken_step (e : Event τ n) : s.taken <+: (step capacity s e).taken := by
  cases e with
  | submit task | finish w | leaveStopped w | leaveClosed w | close =>
    simp only [step]
    split <;> exact prefix_rfl
  | take w =>
    simp only [step]
    split
    · exact prefix_append _ _
    · exact prefix_rfl
  | stop => exact prefix_rfl

theorem taken_run (es : List (Event τ n)) : s.taken <+: (run capacity s es).taken := by
  induction es generalizing s with
  | nil => exact prefix_rfl
  | cons e es ih => exact (taken_step capacity s e).trans (ih _)

/-- A worker ends what it is doing and then chooses the stop channel. -/
def goAway (w : Fin n) : List (Event τ n) := [.finish w, .leaveStopped w]

theorem run_goAway {s : Pool τ n} (h : s.stopped = true) (w : Fin n) :
    run capacity s (goAway w) = { s with workers := update s.workers w .gone } := by
  cases hw : s.workers w with
  | waiting | busy task => simp [run, goAway, step, hw, h]
  | gone =>
    have hsame : update s.workers w .gone = s.workers := by
      rw [← hw, update_eq_self]
    simp [run, goAway, step, hw, hsame]

theorem run_goAway_all {s : Pool τ n} (h : s.stopped = true) (ws : List (Fin n)) :
    run capacity s (ws.flatMap goAway) =
      { s with workers := fun w => if w ∈ ws then .gone else s.workers w } := by
  induction ws generalizing s with
  | nil => simp [run]
  | cons w ws ih =>
    have hfirst := run_goAway capacity h w
    rw [flatMap_cons, run, GuardedRun.run_append]
    change run capacity (run capacity s (goAway w)) (ws.flatMap goAway) = _
    rw [hfirst, ih (s := { s with workers := update s.workers w .gone }) h]
    congr 1
    funext v
    by_cases hv : v = w
    · simp [hv]
    · simp [hv]

/-- A shutdown in which no worker looks at the tasks any more. -/
def hastyShutdown (n : ℕ) : List (Event τ n) := .stop :: .close :: (List.finRange n).flatMap goAway

theorem run_hastyShutdown :
    run capacity s (hastyShutdown n) =
      { s with stopped := true, closed := true, workers := fun _ => .gone } := by
  have hclosed : run capacity s (hastyShutdown n) =
      run capacity { s with stopped := true, closed := true } ((finRange n).flatMap goAway) := by
    simp [run, hastyShutdown, step]
  rw [hclosed, run_goAway_all capacity rfl]
  simp

/-- Every schedule of a shutdown takes all accepted tasks exactly when none is waiting. -/
theorem drains_iff :
    (∀ es, (run capacity s es).Returned → s.accepted <+: (run capacity s es).taken) ↔
      s.queue = [] := by
  constructor
  · intro h
    have hreturned : (run capacity s (hastyShutdown n)).Returned := by
      rw [run_hastyShutdown]
      exact ⟨rfl, rfl, fun _ => rfl⟩
    have hprefix := h _ hreturned
    rw [run_hastyShutdown] at hprefix
    have hlength := hprefix.length_le
    simp only [Pool.accepted, length_append] at hlength
    exact length_eq_zero_iff.mp (by omega)
  · intro hempty es _
    rw [Pool.accepted, hempty, append_nil]
    exact taken_run capacity s es

end WorkerPool
