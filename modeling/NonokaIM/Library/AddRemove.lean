import Mathlib.Data.List.Basic
import Mathlib.Data.List.Induction
import Mathlib.Data.Set.Insert

/-! Sequences of calls that add and remove elements, and the elements that were added and not
removed since. -/

namespace AddRemove

open List

inductive Call (α : Type) where
  | add (a : α)
  | remove (a : α)
  deriving DecidableEq

/-- The element of a call. -/
def Call.arg {α : Type} : Call α → α
  | .add a => a
  | .remove a => a

variable {α : Type} {calls : List (Call α)} {x : Call α} {a : α}

/-- The elements that were added and not removed since. -/
def live (calls : List (Call α)) : Set α :=
  {a | ∃ before after, calls = before ++ .add a :: after ∧ .remove a ∉ after}

theorem mem_of_live (h : a ∈ live calls) : .add a ∈ calls := by
  obtain ⟨before, after, rfl, -⟩ := h
  exact mem_append_right _ mem_cons_self

theorem live_nil : live ([] : List (Call α)) = ∅ :=
  Set.eq_empty_of_forall_notMem fun _ h => not_mem_nil (mem_of_live h)

theorem mem_live_concat :
    a ∈ live (calls ++ [x]) ↔ x = .add a ∨ a ∈ live calls ∧ x ≠ .remove a := by
  constructor
  · rintro ⟨before, after, heq, hnot⟩
    rcases eq_nil_or_concat' after with rfl | ⟨after', y, rfl⟩
    · exact .inl (singleton_inj.mp (append_inj' heq rfl).2)
    · rw [← cons_append, ← append_assoc] at heq
      obtain ⟨hcalls, hx⟩ := append_inj' heq rfl
      rw [singleton_inj] at hx
      rw [mem_append, mem_singleton, not_or, ← hx] at hnot
      exact .inr ⟨⟨before, after', hcalls, hnot.1⟩, Ne.symm hnot.2⟩
  · rintro (rfl | ⟨⟨before, after, rfl, hnot⟩, hx⟩)
    · exact ⟨calls, [], rfl, not_mem_nil⟩
    · refine ⟨before, after ++ [x], by rw [append_assoc, cons_append], ?_⟩
      rw [mem_append, mem_singleton, not_or]
      exact ⟨hnot, Ne.symm hx⟩

theorem live_add (calls : List (Call α)) (a : α) :
    live (calls ++ [.add a]) = insert a (live calls) := by
  ext b
  refine mem_live_concat.trans ?_
  constructor
  · rintro (hx | ⟨hb, -⟩)
    · cases hx
      exact .inl rfl
    · exact .inr hb
  · rintro (rfl | hb)
    · exact .inl rfl
    · exact .inr ⟨hb, by simp⟩

theorem live_remove (calls : List (Call α)) (a : α) :
    live (calls ++ [.remove a]) = live calls \ {a} := by
  ext b
  refine mem_live_concat.trans ?_
  constructor
  · rintro (hx | ⟨hb, hx⟩)
    · cases hx
    · refine ⟨hb, ?_⟩
      rintro rfl
      exact hx rfl
  · rintro ⟨hb, hne⟩
    refine .inr ⟨hb, ?_⟩
    intro hx
    cases hx
    exact hne rfl

theorem live_map_add (l : List α) : live (l.map .add) = {a | a ∈ l} := by
  induction l using reverseRecOn with
  | nil => simp [live_nil]
  | append_singleton l a ih =>
    rw [map_append, map_singleton, live_add, ih]
    ext b
    simp [or_comm]

end AddRemove
