import Mathlib.Data.Finset.Basic
import Mathlib.Data.List.Nodup
import Mathlib.Data.List.Sort
import Mathlib.Data.List.Perm.Basic

/-! A sorted set of members with scores. A member has the labels of all that put it there, at least
one, which are not part of what the set shows. -/

namespace SortedSet

open List

structure Entry (μ κ : Type*) where
  member : μ
  score : ℤ
  labels : Finset κ
  labelled : labels.Nonempty
  deriving DecidableEq

/-- The members of the entries are different. -/
structure Entries (μ κ : Type*) where
  list : List (Entry μ κ)
  unique : (list.map Entry.member).Nodup

variable {μ κ : Type*} [DecidableEq μ] [DecidableEq κ]

/-- A member that is there gets the new score, and more labels. -/
def update (m : μ) (score : ℤ) (labels : Finset κ) (e : Entry μ κ) : Entry μ κ :=
  if e.member = m then
    { e with
      score
      labels := e.labels ∪ labels
      labelled := e.labelled.mono Finset.subset_union_left }
  else e

@[simp] theorem member_update (m : μ) (score : ℤ) (labels : Finset κ) (e : Entry μ κ) :
    (update m score labels e).member = e.member := by
  unfold update
  split <;> rfl

theorem mem_labels_update {m : μ} {score : ℤ} {labels : Finset κ} {e : Entry μ κ} {c : κ} :
    c ∈ (update m score labels e).labels ↔ c ∈ e.labels ∨ (e.member = m ∧ c ∈ labels) := by
  unfold update
  split <;> simp_all

def addTo (list : List (Entry μ κ)) (e : Entry μ κ) : List (Entry μ κ) :=
  if e.member ∈ list.map Entry.member then list.map (update e.member e.score e.labels)
  else list ++ [e]

theorem nodup_addTo {list : List (Entry μ κ)} (h : (list.map Entry.member).Nodup)
    (e : Entry μ κ) : ((addTo list e).map Entry.member).Nodup := by
  unfold addTo
  split
  · rw [map_map]
    simpa [Function.comp_def] using h
  · rename_i hnew
    rw [map_append, map_singleton]
    apply nodup_append.mpr
    refine ⟨h, nodup_singleton _, ?_⟩
    intro a ha b hb hab
    rw [hab, mem_singleton.mp hb] at ha
    exact hnew ha

namespace Entries

def empty : Entries μ κ := ⟨[], List.nodup_nil⟩

def add (s : Entries μ κ) (e : Entry μ κ) : Entries μ κ :=
  ⟨addTo s.list e, nodup_addTo s.unique e⟩

def remove (s : Entries μ κ) (m : μ) : Entries μ κ :=
  ⟨s.list.filter fun e => e.member ≠ m, s.unique.sublist (List.filter_sublist.map _)⟩

def find (s : Entries μ κ) (m : μ) : Option (Entry μ κ) := s.list.find? fun e => e.member = m

/-- The first members with scores from zero to a bound, by their scores and then in an order of
their own. -/
def range (le : μ → μ → Bool) (s : Entries μ κ) (bound : ℤ) (count : ℕ) : List μ :=
  (((s.list.filter fun e => 0 ≤ e.score ∧ e.score ≤ bound).insertionSort fun a b =>
    a.score < b.score ∨ a.score = b.score ∧ le a.member b.member).take count).map Entry.member

/-- The members that have a label. -/
def holding (s : Entries μ κ) (c : κ) : List μ :=
  (s.list.filter fun e => c ∈ e.labels).map Entry.member

section

variable {s : Entries μ κ} {e : Entry μ κ} {c : κ}

theorem holding_add_of_notMem (hc : c ∉ e.labels) : (s.add e).holding c = s.holding c := by
  unfold holding add addTo
  dsimp only
  split
  · rw [filter_map, map_map]
    simp [Function.comp_def, mem_labels_update, hc]
  · simp [hc]

theorem holding_add_of_empty (hc : c ∈ e.labels) (hnone : s.holding c = []) :
    (s.add e).holding c = [e.member] := by
  have hno : ∀ f ∈ s.list, c ∉ f.labels := by
    simpa [holding] using hnone
  unfold holding add addTo
  dsimp only
  split
  · rename_i hmem
    have hfilter : s.list.filter (fun f => c ∈ (update e.member e.score e.labels f).labels) =
        s.list.filter fun f => f.member = e.member := by
      apply filter_congr
      intro f hf
      simp [mem_labels_update, hno f hf, hc]
    have hone : (s.list.map Entry.member).filter (· = e.member) = [e.member] := by
      rw [filter_eq, count_eq_one_of_mem s.unique hmem]
      rfl
    rw [filter_map, map_map]
    simp only [Function.comp_def, member_update]
    rw [hfilter, ← hone, filter_map]
    rfl
  · simpa [filter_append, hc] using hno

omit [DecidableEq κ] in
theorem mem_of_find {m : μ} (h : s.find m = some e) : e ∈ s.list ∧ e.member = m :=
  ⟨mem_of_find?_eq_some h, by simpa using List.find?_some h⟩

/-- Adding a member again, with labels that it has, changes its score only. -/
theorem holding_add_of_find {f : Entry μ κ} (h : s.find e.member = some f)
    (hlabels : e.labels ⊆ f.labels) : (s.add e).holding c = s.holding c := by
  obtain ⟨hmem, hmember⟩ := mem_of_find h
  have hthere : e.member ∈ s.list.map Entry.member := hmember ▸ mem_map_of_mem hmem
  unfold holding add addTo
  dsimp only
  rw [if_pos hthere, filter_map, map_map]
  simp only [Function.comp_def, member_update]
  congr 1
  apply filter_congr
  intro x hx
  rw [decide_eq_decide, mem_labels_update]
  refine or_iff_left_of_imp ?_
  rintro ⟨hsame, hc⟩
  rw [inj_on_of_nodup_map s.unique hx hmem (hsame.trans hmember.symm)]
  exact hlabels hc

theorem mem_holding_of_find {m : μ} (h : s.find m = some e) (hc : c ∈ e.labels) :
    m ∈ s.holding c := by
  obtain ⟨hmem, rfl⟩ := mem_of_find h
  exact mem_map_of_mem (mem_filter.mpr ⟨hmem, by simpa using hc⟩)

theorem holding_remove (m : μ) : (s.remove m).holding c = (s.holding c).filter (· ≠ m) := by
  unfold holding remove
  rw [filter_map, filter_filter, filter_filter]
  congr 1
  apply filter_congr
  intro f _
  exact Bool.and_comm _ _

theorem holding_remove_of_notMem {m : μ} (h : s.find m = some e) (hc : c ∉ e.labels) :
    (s.remove m).holding c = s.holding c := by
  rw [holding_remove, filter_eq_self]
  intro m' hm'
  obtain ⟨f, hf, rfl⟩ := mem_map.mp hm'
  obtain ⟨hmem, rfl⟩ := mem_of_find h
  obtain ⟨hfs, hfc⟩ := mem_filter.mp hf
  apply decide_eq_true
  intro heq
  have hsame : f = e := inj_on_of_nodup_map s.unique hfs hmem heq
  rw [hsame] at hfc
  exact hc (by simpa using hfc)

theorem holding_remove_sublist (m : μ) : ((s.remove m).holding c).Sublist (s.holding c) := by
  rw [holding_remove]
  exact filter_sublist

end

end Entries

end SortedSet
