import Mathlib.Data.Set.Insert
import Mathlib.Order.BooleanAlgebra.Set

/-! A stored set that is read through a cached copy, which counts as absent when it is empty. -/

namespace ReadThrough

open Set

variable {α : Type*}

/-- The stored set and its copy. -/
@[ext] structure State (α : Type*) where
  stored : Set α
  cached : Set α

/-- What a reader is given: the copy, or the stored set when there is none. -/
def read (s : State α) : Set α :=
  {a | (s.cached = ∅ → a ∈ s.stored) ∧ (s.cached ≠ ∅ → a ∈ s.cached)}

variable {s : State α}

theorem read_of_absent (h : s.cached = ∅) : read s = s.stored := by
  ext a
  simp [read, h]

theorem read_of_present (h : s.cached ≠ ∅) : read s = s.cached := by
  ext a
  simp [read, h]

/-- Readers are given the stored set. -/
def Coherent (s : State α) : Prop := read s = s.stored

theorem coherent_iff : Coherent s ↔ s.cached = ∅ ∨ s.cached = s.stored := by
  by_cases h : s.cached = ∅
  · simp [Coherent, read_of_absent h, h]
  · simp [Coherent, read_of_present h, h]

/-- A read that fills the cache, the two writes, and the expiry of the copy. -/
inductive Op (α : Type*) where
  | fill
  | add (a : α)
  | remove (a : α)
  | expire

def step (s : State α) : Op α → State α
  | .fill => { s with cached := read s }
  | .add a => { stored := insert a s.stored, cached := insert a s.cached }
  | .remove a => { stored := s.stored \ {a}, cached := s.cached \ {a} }
  | .expire => { s with cached := ∅ }

/-- An added element meets a copy, or it is all there is to store. -/
def Keeps (s : State α) : Op α → Prop
  | .add a => s.cached = ∅ → s.stored ⊆ {a}
  | _ => True

/-- The only step that breaks coherence is an addition that starts a copy of its own. -/
theorem coherent_step_iff (h : Coherent s) (op : Op α) : Coherent (step s op) ↔ Keeps s op := by
  cases op with
  | fill =>
    simp only [Keeps, iff_true]
    exact coherent_iff.mpr (.inr h)
  | expire =>
    simp only [Keeps, iff_true]
    exact coherent_iff.mpr (.inl rfl)
  | remove a =>
    simp only [Keeps, iff_true]
    apply coherent_iff.mpr
    rcases coherent_iff.mp h with hnone | hcopy
    · exact .inl (by simp only [step, hnone, empty_sdiff])
    · exact .inr (by simp only [step, hcopy])
  | add a =>
    have hpresent : (step s (.add a)).cached ≠ ∅ := (insert_nonempty a s.cached).ne_empty
    rw [coherent_iff, or_iff_right hpresent]
    simp only [Keeps, step]
    rcases coherent_iff.mp h with hnone | hcopy
    · rw [hnone, insert_empty_eq]
      constructor
      · intro heq _
        rw [heq]
        exact subset_insert a s.stored
      · intro hsub
        apply Subset.antisymm
        · exact singleton_subset_iff.mpr (mem_insert a s.stored)
        · exact insert_subset rfl (hsub rfl)
    · rw [hcopy]
      refine iff_of_true rfl ?_
      intro hnone
      rw [hnone]
      exact empty_subset _

end ReadThrough
