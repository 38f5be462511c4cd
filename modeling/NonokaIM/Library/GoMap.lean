import Mathlib.Data.Fintype.List
import Mathlib.Data.List.AList
import Mathlib.Data.List.FinRange
import Mathlib.Data.Set.Card

/-! Maps with finitely many entries in no particular order, and lists that are spread over a number
of parts. -/

/-- A map from keys to values. The order of its entries means nothing. -/
abbrev GoMap (κ α : Type) := AList fun _ : κ => α

open List

namespace GoMap

variable {κ α : Type} [DecidableEq κ]

/-- The values, one for each key. -/
def values (m : GoMap κ α) : List α := m.entries.map Sigma.snd

variable {m : GoMap κ α}

theorem mem_values {a : α} : a ∈ m.values ↔ ∃ k, m.lookup k = some a := by
  constructor
  · intro h
    obtain ⟨⟨k, b⟩, hmem, rfl⟩ := mem_map.mp h
    exact ⟨k, AList.mem_lookup_iff.mpr hmem⟩
  · rintro ⟨k, hk⟩
    exact mem_map.mpr ⟨⟨k, a⟩, AList.mem_lookup_iff.mp hk, rfl⟩

omit [DecidableEq κ] in
theorem length_values (m : GoMap κ α) : m.values.length = m.keys.length := by
  rw [values, AList.keys, keys, length_map, length_map]

theorem nodup_values {key : α → κ} (h : ∀ k a, m.lookup k = some a → key a = k) :
    m.values.Nodup := by
  have hkeys : m.values.map key = m.keys := by
    rw [values, AList.keys, keys, map_map]
    refine map_congr_left fun e he => ?_
    exact h e.1 e.2 (AList.mem_lookup_iff.mpr he)
  exact Nodup.of_map key (hkeys ▸ m.keys_nodup)

theorem nodup_filterMap_lookup {keys : List κ} (hkeys : keys.Nodup) {key : α → κ}
    (h : ∀ k a, m.lookup k = some a → key a = k) : (keys.filterMap fun k => m.lookup k).Nodup := by
  refine hkeys.filterMap ?_
  intro k k' a hk hk'
  exact (h k a hk).symm.trans (h k' a hk')

end GoMap

namespace Spread

variable {n : ℕ} {α : Type*} {part : Fin n → List α} (home : α → Fin n)

/-- All elements, part by part. -/
def all (part : Fin n → List α) : List α := (finRange n).flatMap part

theorem mem_all_iff (h : ∀ i, ∀ a ∈ part i, home a = i) {a : α} :
    a ∈ all part ↔ a ∈ part (home a) := by
  rw [all, mem_flatMap]
  constructor
  · rintro ⟨i, -, ha⟩
    rwa [h i a ha]
  · exact fun ha => ⟨home a, mem_finRange _, ha⟩

theorem nodup_all (h : ∀ i, ∀ a ∈ part i, home a = i) (hnodup : ∀ i, (part i).Nodup) :
    (all part).Nodup := by
  refine nodup_flatMap.mpr ⟨fun i _ => hnodup i, ?_⟩
  refine (nodup_finRange n).imp ?_
  intro i j hij a hi hj
  exact hij ((h i a hi).symm.trans (h j a hj))

theorem length_all (part : Fin n → List α) :
    (all part).length = ((finRange n).map fun i => (part i).length).sum :=
  length_flatMap

theorem length_eq_ncard {l : List α} (hnodup : l.Nodup) {s : Set α} (h : ∀ a, a ∈ l ↔ a ∈ s) :
    l.length = s.ncard := by
  classical
  have hs : s = ↑l.toFinset := by
    ext a
    rw [Finset.mem_coe, mem_toFinset]
    exact (h a).symm
  rw [hs, Set.ncard_coe_finset, toFinset_card_of_nodup hnodup]

end Spread
