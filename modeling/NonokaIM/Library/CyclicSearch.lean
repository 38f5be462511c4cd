import Mathlib.Data.List.Sort
import Mathlib.Data.Set.Insert

/-! Binary search, and the next element of a set on a ring: behind the largest comes the
smallest. -/

namespace CyclicSearch

open List

/-! ## Binary search -/

/-- The loop of a binary search. The first argument bounds the number of rounds. -/
def searchLoop (f : ℕ → Bool) : ℕ → ℕ → ℕ → ℕ
  | 0, i, _ => i
  | fuel + 1, i, j =>
    if i < j then
      if f ((i + j) / 2) then searchLoop f fuel i ((i + j) / 2)
      else searchLoop f fuel ((i + j) / 2 + 1) j
    else i

/-- The smallest index below `n` for which `f` is true, or `n`. -/
def search (n : ℕ) (f : ℕ → Bool) : ℕ := searchLoop f n 0 n

variable {f : ℕ → Bool}

theorem searchLoop_le (fuel i j : ℕ) (hij : i ≤ j) : searchLoop f fuel i j ≤ j := by
  induction fuel generalizing i j with
  | zero => exact hij
  | succ fuel ih =>
    rw [searchLoop]
    split
    · split
      · exact Nat.le_trans (ih i ((i + j) / 2) (by omega)) (by omega)
      · exact ih ((i + j) / 2 + 1) j (by omega)
    · exact hij

theorem search_le (n : ℕ) : search n f ≤ n := searchLoop_le n 0 n (Nat.zero_le n)

/-- The loop keeps `f` false below its interval and true from its end on. -/
theorem searchLoop_spec {n : ℕ} (hmono : ∀ i j, i ≤ j → j < n → f i = true → f j = true)
    (fuel i j : ℕ) (hfuel : j - i ≤ fuel) (hij : i ≤ j) (hj : j ≤ n)
    (hlow : ∀ k < i, f k = false) (hhigh : ∀ k, j ≤ k → k < n → f k = true) :
    (∀ k < searchLoop f fuel i j, f k = false) ∧
      ∀ k, searchLoop f fuel i j ≤ k → k < n → f k = true := by
  induction fuel generalizing i j with
  | zero =>
    obtain rfl : i = j := by omega
    exact ⟨hlow, hhigh⟩
  | succ fuel ih =>
    rw [searchLoop]
    by_cases hlt : i < j
    · rw [if_pos hlt]
      split
      · rename_i hmid
        refine ih i ((i + j) / 2) (by omega) (by omega) (by omega) hlow ?_
        exact fun k hk hkn => hmono _ k hk hkn hmid
      · rename_i hmid
        refine ih ((i + j) / 2 + 1) j (by omega) (by omega) hj ?_ hhigh
        intro k hk
        by_contra hfk
        rw [Bool.not_eq_false] at hfk
        exact hmid (hmono k _ (by omega) (by omega) hfk)
    · obtain rfl : i = j := by omega
      rw [if_neg hlt]
      exact ⟨hlow, hhigh⟩

theorem search_spec {n : ℕ} (hmono : ∀ i j, i ≤ j → j < n → f i = true → f j = true) :
    (∀ k < search n f, f k = false) ∧ ∀ k, search n f ≤ k → k < n → f k = true :=
  searchLoop_spec hmono n 0 n (by omega) (by omega) (by omega) (by omega) (by omega)

section

variable {α : Type*} [LinearOrder α] {s t : Set α} {x p q : α}

/-- The next element of a set from a position. -/
def Next (s : Set α) (x p : α) : Prop :=
  p ∈ s ∧ (x ≤ p ∧ (∀ q ∈ s, x ≤ q → p ≤ q) ∨ (∀ q ∈ s, q < x) ∧ ∀ q ∈ s, p ≤ q)

theorem Next.unique (hp : Next s x p) (hq : Next s x q) : p = q := by
  obtain ⟨hps, ⟨hxp, hpmin⟩ | ⟨hbelow, hpmin⟩⟩ := hp
  · obtain ⟨hqs, ⟨hxq, hqmin⟩ | ⟨hbelow, -⟩⟩ := hq
    · exact le_antisymm (hpmin q hqs hxq) (hqmin p hps hxp)
    · exact absurd (hbelow p hps) (not_lt.mpr hxp)
  · obtain ⟨hqs, ⟨hxq, -⟩ | ⟨-, hqmin⟩⟩ := hq
    · exact absurd (hbelow q hqs) (not_lt.mpr hxq)
    · exact le_antisymm (hpmin q hqs) (hqmin p hps)

theorem Next.of_subset (hp : Next t x p) (hsub : s ⊆ t) (hps : p ∈ s) : Next s x p := by
  refine ⟨hps, hp.2.imp ?_ ?_⟩
  · exact fun ⟨hx, hmin⟩ => ⟨hx, fun q hq => hmin q (hsub hq)⟩
  · exact fun ⟨hbelow, hmin⟩ => ⟨fun q hq => hbelow q (hsub hq), fun q hq => hmin q (hsub hq)⟩

/-! ## Searching a sorted list -/

/-- Whether the element at an index is at or after a position. -/
def reaches (l : List α) (x : α) (i : ℕ) : Bool := l[i]?.any fun q => decide (x ≤ q)

/-- The element that a binary search from a position finds, or the first one at the end. -/
def nextIn (l : List α) (x : α) : Option α :=
  let idx := search l.length (reaches l x)
  l[if idx = l.length then 0 else idx]?

variable {l : List α}

theorem le_of_getElem? (hl : l.Pairwise (· ≤ ·)) {i j : ℕ} (hij : i ≤ j) (hp : l[i]? = some p)
    (hq : l[j]? = some q) : p ≤ q := by
  obtain ⟨hi, rfl⟩ := List.getElem?_eq_some_iff.mp hp
  obtain ⟨hj, rfl⟩ := List.getElem?_eq_some_iff.mp hq
  rcases Nat.eq_or_lt_of_le hij with rfl | hlt
  · exact le_refl _
  · exact pairwise_iff_getElem.mp hl i j hi hj hlt

theorem reaches_iff {i : ℕ} (hp : l[i]? = some p) : reaches l x i = true ↔ x ≤ p := by
  rw [reaches, hp, Option.any_some, decide_eq_true_eq]

theorem next_of_nextIn (hl : l.Pairwise (· ≤ ·)) (h : nextIn l x = some p) :
    Next {q | q ∈ l} x p := by
  have hmono : ∀ i j, i ≤ j → j < l.length → reaches l x i = true → reaches l x j = true := by
    intro i j hij hj hi
    have hget := getElem?_eq_getElem (Nat.lt_of_le_of_lt hij hj)
    rw [reaches_iff hget] at hi
    rw [reaches_iff (getElem?_eq_getElem hj)]
    exact le_trans hi (le_of_getElem? hl hij hget (getElem?_eq_getElem hj))
  obtain ⟨hbelow, hfrom⟩ := search_spec hmono
  unfold nextIn at h
  dsimp only at h
  refine ⟨mem_of_getElem? h, ?_⟩
  split at h
  · -- the search ran to the end: every element is before the position
    rename_i hend
    refine .inr ⟨?_, ?_⟩
    · intro q hq
      obtain ⟨k, hk⟩ := getElem?_of_mem hq
      have hfalse := hbelow k (Nat.lt_of_lt_of_eq (List.getElem?_eq_some_iff.mp hk).1 hend.symm)
      rw [← not_le, ← reaches_iff hk, hfalse]
      exact Bool.false_ne_true
    · intro q hq
      obtain ⟨k, hk⟩ := getElem?_of_mem hq
      exact le_of_getElem? hl (Nat.zero_le k) h hk
  · refine .inl ⟨?_, ?_⟩
    · exact (reaches_iff h).mp (hfrom _ (le_refl _) (List.getElem?_eq_some_iff.mp h).1)
    · intro q hq hx
      obtain ⟨k, hk⟩ := getElem?_of_mem hq
      refine le_of_getElem? hl ?_ h hk
      by_contra hlt
      have htrue := (reaches_iff hk).mpr hx
      rw [hbelow k (not_le.mp hlt)] at htrue
      exact Bool.false_ne_true htrue

theorem exists_nextIn (hne : l ≠ []) (x : α) : ∃ p, nextIn l x = some p := by
  have hpos := length_pos_iff.mpr hne
  have hle := search_le (f := reaches l x) l.length
  unfold nextIn
  dsimp only
  split
  · exact ⟨_, getElem?_eq_getElem hpos⟩
  · rename_i hend
    exact ⟨_, getElem?_eq_getElem (Nat.lt_of_le_of_ne hle hend)⟩

end

end CyclicSearch
