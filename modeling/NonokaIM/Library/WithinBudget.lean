import Mathlib.Algebra.GroupWithZero.Nat
import Mathlib.Algebra.Order.Group.Nat
import Mathlib.Algebra.Order.BigOperators.Group.List

/-! The first entries of a list that a budget has room for. -/

namespace WithinBudget

open List

variable {α : Type*} (cost : α → ℕ) (budget : ℕ)

/-- Entries from the front, up to the first that is too much. -/
def keep : ℕ → List α → List α
  | _, [] => []
  | used, x :: xs => if budget < used + cost x then [] else x :: keep (used + cost x) xs

def Fits (used : ℕ) (xs : List α) : Prop := used + (xs.map cost).sum ≤ budget
  deriving Decidable

/-- The first `k` entries fit, and no more of them do. No entries are always allowed. -/
structure Leading (used : ℕ) (xs : List α) (k : ℕ) : Prop where
  le : k ≤ xs.length
  fits : k = 0 ∨ Fits cost budget used (xs.take k)
  full : k < xs.length → ¬ Fits cost budget used (xs.take (k + 1))

instance (used : ℕ) (xs : List α) (k : ℕ) : Decidable (Leading cost budget used xs k) :=
  decidable_of_iff (k ≤ xs.length ∧ (k = 0 ∨ Fits cost budget used (xs.take k)) ∧
    (k < xs.length → ¬ Fits cost budget used (xs.take (k + 1))))
    ⟨fun h => ⟨h.1, h.2.1, h.2.2⟩, fun h => ⟨h.le, h.fits, h.full⟩⟩

variable {cost budget} {used : ℕ} {xs : List α}

theorem Fits.take_of_le {j k : ℕ} (h : Fits cost budget used (xs.take k)) (hle : j ≤ k) :
    Fits cost budget used (xs.take j) := by
  have hsub : (xs.take j).Sublist (xs.take k) := take_sublist_take_left hle
  have hsum : ((xs.take j).map cost).sum ≤ ((xs.take k).map cost).sum :=
    (hsub.map cost).sum_le_sum fun _ _ => Nat.zero_le _
  exact (Nat.add_le_add_left hsum used).trans h

theorem Leading.unique {j k : ℕ} (hj : Leading cost budget used xs j)
    (hk : Leading cost budget used xs k) : j = k := by
  by_contra hne
  rcases Nat.lt_or_gt_of_ne hne with hlt | hlt
  · have hfits := hk.fits.resolve_left (by omega)
    exact hj.full (hlt.trans_le hk.le) (hfits.take_of_le hlt)
  · have hfits := hj.fits.resolve_left (by omega)
    exact hk.full (hlt.trans_le hj.le) (hfits.take_of_le hlt)

/-- What is kept are the first entries, as many as fit. -/
theorem keep_spec (cost : α → ℕ) (budget used : ℕ) (xs : List α) :
    ∃ k, Leading cost budget used xs k ∧ keep cost budget used xs = xs.take k := by
  induction xs generalizing used with
  | nil => exact ⟨0, ⟨Nat.le_refl _, .inl rfl, fun h => absurd h (Nat.lt_irrefl _)⟩, rfl⟩
  | cons x xs ih =>
    by_cases hover : budget < used + cost x
    · refine ⟨0, ⟨Nat.zero_le _, .inl rfl, fun _ hfits => ?_⟩, by simp [keep, hover]⟩
      simp only [Fits, Nat.zero_add, take_succ_cons, take_zero, map_cons,
        map_nil, sum_cons, sum_nil] at hfits
      omega
    · obtain ⟨k, hk, hkeep⟩ := ih (used + cost x)
      have hshift (n : ℕ) : Fits cost budget used ((x :: xs).take (n + 1)) ↔
          Fits cost budget (used + cost x) (xs.take n) := by
        simp only [Fits, take_succ_cons, map_cons, sum_cons, Nat.add_assoc]
      refine ⟨k + 1, ⟨Nat.succ_le_succ hk.le, .inr ((hshift k).mpr ?_), fun hlt => ?_⟩, ?_⟩
      · rcases hk.fits with rfl | hfits
        · simp only [Fits, take_zero, map_nil, sum_nil]
          omega
        · exact hfits
      · rw [hshift]
        exact hk.full (Nat.lt_of_succ_lt_succ hlt)
      · rw [keep, if_neg hover, hkeep, take_succ_cons]

end WithinBudget
