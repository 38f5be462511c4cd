import Mathlib.Data.List.Sort
import Mathlib.Data.List.Perm.Subperm
import Mathlib.Data.Set.Basic

/-! The first elements of a set above a bound, put together from windows of two sets. -/

namespace Window

open List

variable {α : Type*} [LinearOrder α]

/-- The `n` smallest elements above a bound in ascending order, or all if there are fewer. -/
structure FirstAbove (n : ℕ) (bound : α) (elements : Set α) (window : List α) : Prop where
  ascending : window.Pairwise (· < ·)
  above : ∀ x ∈ window, x ∈ elements ∧ bound < x
  length_le : window.length ≤ n
  complete : ∀ x ∈ elements, bound < x → x ∉ window → window.length = n ∧ ∀ y ∈ window, y < x

variable {n : ℕ} {bound : α} {elements : Set α}

variable {xs ps qs : List α}

theorem full_of_mem_of_notMem_take (h : xs.Pairwise (· < ·)) {x : α} (hx : x ∈ xs)
    (hnot : x ∉ xs.take n) : (xs.take n).length = n ∧ ∀ y ∈ xs.take n, y < x := by
  have hsplit := take_append_drop n xs
  have hdrop : x ∈ xs.drop n := by
    rw [← hsplit] at hx
    exact (mem_append.mp hx).resolve_left hnot
  constructor
  · have hlen := length_pos_of_mem hdrop
    rw [length_drop] at hlen
    exact length_take_of_le (by omega)
  · intro y hy
    rw [← hsplit] at h
    exact (pairwise_append.mp h).2.2 y hy x hdrop

theorem firstAbove_take (h : xs.Pairwise (· < ·)) :
    FirstAbove n bound {x | x ∈ xs} ((xs.filter (bound < ·)).take n) := by
  have hfilter : (xs.filter (bound < ·)).Pairwise (· < ·) := h.filter _
  refine ⟨hfilter.sublist (take_sublist _ _), ?_, length_take_le _ _, ?_⟩
  · intro x hx
    simpa using mem_of_mem_take hx
  · intro x hx hbound hnot
    apply full_of_mem_of_notMem_take hfilter _ hnot
    exact mem_filter.mpr ⟨hx, by simpa using hbound⟩

/-- An element of one window is in every other: it would otherwise be one more than `n`. -/
theorem FirstAbove.subset (hp : FirstAbove n bound elements ps)
    (hq : FirstAbove n bound elements qs) : ps ⊆ qs := by
  intro x hx
  by_contra hnot
  obtain ⟨hlen, hbelow⟩ := hq.complete x (hp.above x hx).1 (hp.above x hx).2 hnot
  have hsub : x :: qs ⊆ ps := by
    intro y hy
    by_contra hyp
    have hy' : y ∈ qs := by
      apply (mem_cons.mp hy).resolve_left
      intro heq
      exact hyp (heq ▸ hx)
    have habove := (hp.complete y (hq.above y hy').1 (hq.above y hy').2 hyp).2 x hx
    exact lt_asymm habove (hbelow y hy')
  have hnodup : (x :: qs).Nodup := nodup_cons.mpr ⟨hnot, hq.ascending.imp ne_of_lt⟩
  have hle := (subperm_of_subset hnodup hsub).length_le
  have hmax := hp.length_le
  rw [length_cons] at hle
  omega

theorem FirstAbove.unique (hp : FirstAbove n bound elements ps)
    (hq : FirstAbove n bound elements qs) : ps = qs :=
  hp.ascending.eq_of_mem_iff hq.ascending fun _ =>
    ⟨fun h => hp.subset hq h, fun h => hq.subset hp h⟩

theorem firstAbove_iff (h : xs.Pairwise (· < ·)) {window : List α} :
    FirstAbove n bound {x | x ∈ xs} window ↔ window = (xs.filter (bound < ·)).take n := by
  constructor
  · intro hw
    exact hw.unique (firstAbove_take h)
  · rintro rfl
    exact firstAbove_take h

theorem FirstAbove.below_of_notMem {rs : List α} (hp : FirstAbove n bound elements ps)
    (hr : rs.Pairwise (· < ·)) (hsub : ps ⊆ rs) {x : α} (hx : x ∈ elements) (hbound : bound < x)
    (hnot : x ∉ rs) : (rs.take n).length = n ∧ ∀ y ∈ rs.take n, y < x := by
  obtain ⟨hlen, hbelow⟩ := hp.complete x hx hbound fun h => hnot (hsub h)
  have hnodup : ps.Nodup := hp.ascending.imp ne_of_lt
  constructor
  · have hle := (subperm_of_subset hnodup hsub).length_le
    exact length_take_of_le (by omega)
  · intro y hy
    by_contra hyx
    have hxy : x < y := by
      apply lt_of_le_of_ne (not_lt.mp hyx)
      rintro rfl
      exact hnot (mem_of_mem_take hy)
    have htaken : y :: ps ⊆ rs.take n := by
      intro z hz
      by_contra hz'
      have hzp : z ∈ ps := by
        apply (mem_cons.mp hz).resolve_left
        intro heq
        exact hz' (heq ▸ hy)
      have hyz := (full_of_mem_of_notMem_take hr (hsub hzp) hz').2 y hy
      exact lt_asymm hyz ((hbelow z hzp).trans hxy)
    have hfresh : y ∉ ps := fun hyp => lt_asymm (hbelow y hyp) hxy
    have hle := (subperm_of_subset (nodup_cons.mpr ⟨hfresh, hnodup⟩) htaken).length_le
    have hmax := length_take_le n rs
    rw [length_cons] at hle
    omega

/-- Two windows, put together in order without repetitions, begin with the window of the union. -/
theorem FirstAbove.union_take {more : Set α} {rs : List α} (hp : FirstAbove n bound elements ps)
    (hq : FirstAbove n bound more qs) (hr : rs.Pairwise (· < ·))
    (hmem : ∀ x, x ∈ rs ↔ x ∈ ps ∨ x ∈ qs) : FirstAbove n bound (elements ∪ more) (rs.take n) := by
  refine ⟨hr.sublist (take_sublist _ _), ?_, length_take_le _ _, ?_⟩
  · intro x hx
    cases (hmem x).mp (mem_of_mem_take hx) with
    | inl hxp => exact ⟨.inl (hp.above x hxp).1, (hp.above x hxp).2⟩
    | inr hxq => exact ⟨.inr (hq.above x hxq).1, (hq.above x hxq).2⟩
  · intro x hx hbound hnot
    by_cases hxr : x ∈ rs
    · exact full_of_mem_of_notMem_take hr hxr hnot
    · cases hx with
      | inl hx => exact hp.below_of_notMem hr (fun y hy => (hmem y).mpr (.inl hy)) hx hbound hxr
      | inr hx => exact hq.below_of_notMem hr (fun y hy => (hmem y).mpr (.inr hy)) hx hbound hxr

end Window
