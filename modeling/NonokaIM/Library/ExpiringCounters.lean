import Mathlib.Data.Nat.Init
import Mathlib.Logic.Function.Basic

/-! Counters with an optional expiry: an increment creates a counter without one. -/

namespace ExpiringCounters

open Option Function

variable {κ : Type*} [DecidableEq κ]

structure Counter where
  value : ℕ
  expiresAt : Option ℕ := none
  deriving DecidableEq

structure Counters (κ : Type*) where
  at? : κ → Option Counter := fun _ => none
  now : ℕ := 0

namespace Counters

variable (s : Counters κ) (key : κ)

/-- The value of a counter that is not there is zero. -/
def value {κ : Type*} (s : Counters κ) (key : κ) : ℕ := (s.at? key).elim 0 Counter.value

/-- The counter of a key after an increment. -/
def incremented {κ : Type*} (s : Counters κ) (key : κ) : Counter where
  value := s.value key + 1
  expiresAt := (s.at? key).bind Counter.expiresAt

def incr : Counters κ := { s with at? := update s.at? key (some (s.incremented key)) }

/-- A number of increments. -/
def incrs : ℕ → Counters κ
  | 0 => s
  | n + 1 => (incrs n).incr key

/-- Set the expiry of a counter; one that is not there is left alone. -/
def expire (ttl : ℕ) : Counters κ :=
  { s with
    at? := update s.at? key ((s.at? key).map fun c => { c with expiresAt := some (s.now + ttl) }) }

/-- Time passes; the counters whose time has come are gone. -/
def elapse {κ : Type*} (s : Counters κ) (time : ℕ) : Counters κ where
  at? key := (s.at? key).filter fun c => c.expiresAt.all fun t => s.now + time < t
  now := s.now + time

/-- No counter lasts forever. -/
def AllExpire {κ : Type*} (s : Counters κ) : Prop :=
  ∀ key c, s.at? key = some c → c.expiresAt ≠ none

@[simp] theorem at_incr_self : (s.incr key).at? key = some (s.incremented key) :=
  update_self ..

variable {s key}

theorem at_incr_of_ne {k : κ} (h : k ≠ key) : (s.incr key).at? k = s.at? k :=
  update_of_ne h ..

@[simp] theorem at_expire_incr_self {ttl : ℕ} :
    ((s.incr key).expire key ttl).at? key =
      some ⟨s.value key + 1, some (s.now + ttl)⟩ := by
  simp [expire, incr, incremented]

theorem at_expire_of_ne {k : κ} {ttl : ℕ} (h : k ≠ key) : (s.expire key ttl).at? k = s.at? k :=
  update_of_ne h ..

omit [DecidableEq κ] in
theorem value_of_none (h : s.at? key = none) : s.value key = 0 := by
  rw [value, h, elim_none]

omit [DecidableEq κ] in
theorem value_of_some {c : Counter} (h : s.at? key = some c) : s.value key = c.value := by
  rw [value, h, elim_some]

omit [DecidableEq κ] in
theorem at_elapse (key : κ) (time : ℕ) :
    (s.elapse time).at? key = s.at? key ∨ (s.elapse time).at? key = none := by
  change (s.at? key).filter _ = _ ∨ (s.at? key).filter _ = none
  cases s.at? key with
  | none => exact .inl rfl
  | some c =>
    cases h : c.expiresAt.all fun t => s.now + time < t with
    | true => exact .inl (by simp [h])
    | false => exact .inr (by simp [h])

omit [DecidableEq κ] in
theorem AllExpire.elapse (h : s.AllExpire) (time : ℕ) : (s.elapse time).AllExpire := by
  intro k c hc
  rcases s.at_elapse k time with hsame | hgone
  · exact h k c (hsame ▸ hc)
  · rw [hgone] at hc
    cases hc

theorem allExpire_incr_iff : (s.incr key).AllExpire ↔ s.AllExpire ∧ s.at? key ≠ none := by
  constructor
  · intro hincr
    have hcounter := hincr key (s.incremented key) (s.at_incr_self key)
    obtain ⟨expiry, hexpiry⟩ := ne_none_iff_exists'.mp hcounter
    obtain ⟨old, hold, hexpires⟩ := bind_eq_some_iff.mp hexpiry
    refine ⟨fun k c hc => ?_, hold ▸ some_ne_none old⟩
    by_cases hk : k = key
    · rw [hk, hold] at hc
      rw [← some.inj hc, hexpires]
      exact some_ne_none expiry
    · exact hincr k c ((at_incr_of_ne hk).trans hc)
  · rintro ⟨h, hsome⟩ k c hc
    by_cases hk : k = key
    · subst hk
      obtain ⟨old, hold⟩ := ne_none_iff_exists'.mp hsome
      rw [at_incr_self, some.injEq, incremented, hold] at hc
      rw [← hc]
      exact h k old hold
    · exact h k c (at_incr_of_ne hk ▸ hc)

theorem at_incrs_of_ne {k : κ} (h : k ≠ key) (n : ℕ) : (s.incrs key n).at? k = s.at? k := by
  induction n with
  | zero => rfl
  | succ n ih => rw [incrs, at_incr_of_ne h, ih]

theorem value_incrs (s : Counters κ) (key : κ) (n : ℕ) :
    (s.incrs key n).value key = s.value key + n := by
  induction n with
  | zero => rfl
  | succ n ih =>
    rw [incrs, value_of_some (at_incr_self _ key), incremented, ih]
    rfl

/-- Increments leave a counter without an expiry exactly if they create it. -/
theorem AllExpire.incrs_iff (h : s.AllExpire) (n : ℕ) :
    (s.incrs key n).AllExpire ↔ n = 0 ∨ s.at? key ≠ none := by
  induction n with
  | zero => exact iff_of_true h (.inl rfl)
  | succ n ih =>
    rw [incrs, allExpire_incr_iff, ih]
    cases n with
    | zero => simp [incrs]
    | succ n => simp [incrs]

theorem AllExpire.expire_incr (h : s.AllExpire) (ttl : ℕ) :
    ((s.incr key).expire key ttl).AllExpire := by
  intro k c hc
  by_cases hk : k = key
  · subst hk
    rw [at_expire_incr_self, some.injEq] at hc
    rw [← hc]
    exact some_ne_none _
  · rw [at_expire_of_ne hk, at_incr_of_ne hk] at hc
    exact h k c hc

end Counters

end ExpiringCounters
