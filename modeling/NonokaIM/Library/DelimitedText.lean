import Mathlib.Data.List.Basic

/-! Texts that are joined by a separator which one of them does not contain. -/

namespace DelimitedText

open List

variable {α : Type*} {sep : α} {a b a' b' : List α}

theorem append_sep_inj (ha : sep ∉ a) (ha' : sep ∉ a') (h : a ++ sep :: b = a' ++ sep :: b') :
    a = a' ∧ b = b' := by
  rcases append_eq_append_iff.mp h with ⟨m, hm, hrest⟩ | ⟨m, hm, hrest⟩
  · cases m with
    | nil =>
      rw [append_nil] at hm
      exact ⟨hm.symm, (cons.inj hrest).2⟩
    | cons x m =>
      obtain ⟨rfl, -⟩ := cons.inj hrest
      exact absurd (hm ▸ mem_append_right a mem_cons_self) ha'
  · cases m with
    | nil =>
      rw [append_nil] at hm
      exact ⟨hm, (cons.inj hrest).2.symm⟩
    | cons x m =>
      obtain ⟨rfl, -⟩ := cons.inj hrest
      exact absurd (hm ▸ mem_append_right a' mem_cons_self) ha

theorem sep_append_inj (hb : sep ∉ b) (hb' : sep ∉ b') (h : a ++ sep :: b = a' ++ sep :: b') :
    a = a' ∧ b = b' := by
  have hreverse : b.reverse ++ sep :: a.reverse = b'.reverse ++ sep :: a'.reverse := by
    simpa using congrArg reverse h
  obtain ⟨hbb, haa⟩ := append_sep_inj (by simpa using hb) (by simpa using hb') hreverse
  exact ⟨reverse_inj.mp haa, reverse_inj.mp hbb⟩

theorem suffix_of_append_sep (hb : sep ∉ b) (h : b <:+ a ++ sep :: a') : b <:+ a' := by
  obtain ⟨before, h⟩ := h
  rcases append_eq_append_iff.mp h with ⟨m, -, hrest⟩ | ⟨m, -, hrest⟩
  · exact absurd (hrest ▸ mem_append_right m mem_cons_self) hb
  · cases m with
    | nil =>
      obtain rfl : sep :: a' = b := hrest
      exact absurd mem_cons_self hb
    | cons x m =>
      obtain ⟨-, rfl⟩ := cons.inj hrest
      exact suffix_append m b

end DelimitedText
