import Mathlib.Order.Interval.Finset.Nat
import Mathlib.Data.Finset.Card

/-! When the first `n` values of a counter, possibly of one word, are all numbers modulo `n`. -/

namespace CyclicCover

open List

/-- Every number below `n` is one of the first `n` values. -/
def Covers (n : ℕ) (f : ℕ → ℕ) : Prop := ∀ j < n, ∃ i < n, f i = j

variable {n : ℕ} {f g : ℕ → ℕ}

theorem Covers.congr (h : Covers n f) (hfg : ∀ i < n, f i = g i) : Covers n g := by
  intro j hj
  obtain ⟨i, hi, hij⟩ := h j hj
  exact ⟨i, hi, (hfg i hi).symm.trans hij⟩

theorem Covers.injOn (h : Covers n f) : Set.InjOn f (Finset.range n) := by
  apply Finset.card_image_iff.mp
  apply Nat.le_antisymm Finset.card_image_le
  apply Finset.card_le_card
  intro j hj
  obtain ⟨i, hi, hij⟩ := h j (Finset.mem_range.mp hj)
  exact Finset.mem_image.mpr ⟨i, Finset.mem_range.mpr hi, hij⟩

theorem Covers.eq_of_eq (h : Covers n f) {i k : ℕ} (hi : i < n) (hk : k < n) (heq : f i = f k) :
    i = k :=
  h.injOn (Finset.mem_coe.mpr (Finset.mem_range.mpr hi))
    (Finset.mem_coe.mpr (Finset.mem_range.mpr hk)) heq

theorem covers_const_iff (hn : 0 < n) {c : ℕ} (hc : c < n) : Covers n (fun _ => c) ↔ n = 1 := by
  constructor
  · intro h
    by_contra hne
    exact absurd (h.eq_of_eq hn (by omega : 1 < n) rfl) Nat.zero_ne_one
  · rintro rfl j hj
    have hcj : c = j := by omega
    exact ⟨0, hn, hcj⟩

theorem covers_mod (a n : ℕ) : Covers n fun i => (a + i) % n := by
  intro j hj
  have hmem : j ∈ (Finset.Ico a (a + n)).image (· % n) := by
    rw [Nat.image_Ico_mod]
    exact Finset.mem_range.mpr hj
  obtain ⟨k, hk, hkj⟩ := Finset.mem_image.mp hmem
  obtain ⟨hak, hkn⟩ := Finset.mem_Ico.mp hk
  refine ⟨k - a, by omega, ?_⟩
  dsimp only
  rw [Nat.add_sub_cancel' hak]
  exact hkj

section

variable {a M : ℕ}

theorem wrap_before {i : ℕ} (h : a + i < M) : (a + i) % M = a + i := Nat.mod_eq_of_lt h

theorem wrap_behind {i k : ℕ} (hk : k < M) (h : a + i = M + k) : (a + i) % M = k := by
  rw [h, Nat.add_mod_left, Nat.mod_eq_of_lt hk]

/-- Behind a wrap on the way the values start at zero again, and one of them was there before,
unless the word is a multiple of `n`. -/
theorem dvd_of_covers_wrap (ha : a < M) (hwrap : M < a + n)
    (h : Covers n fun i => (a + i) % M % n) : n ∣ M := by
  have hnM : n ≤ M := by
    by_contra hlt
    obtain ⟨i, -, hi⟩ := h (n - 1) (by omega)
    dsimp only at hi
    have hle : (a + i) % M % n ≤ (a + i) % M := Nat.mod_le _ _
    have hlt' : (a + i) % M < M := Nat.mod_lt _ (by omega)
    omega
  by_contra hdvd
  have hr : 0 < M % n := Nat.pos_of_ne_zero fun h0 => hdvd (Nat.dvd_of_mod_eq_zero h0)
  have hrn : M % n < n := Nat.mod_lt _ (by omega)
  have hM : n * (M / n) + M % n = M := Nat.div_add_mod M n
  -- the last value before the wrap is `M - 1`, which leaves `M % n - 1`
  by_cases hearly : M % n - 1 < n - (M - a)
  · have hlast : (a + (M - a - 1)) % M % n = M % n - 1 := by
      rw [wrap_before (by omega), show a + (M - a - 1) = n * (M / n) + (M % n - 1) by omega,
        Nat.mul_add_mod, Nat.mod_eq_of_lt (by omega)]
    have hagain : (a + (M - a + (M % n - 1))) % M % n = M % n - 1 := by
      rw [wrap_behind (by omega : M % n - 1 < M) (by omega), Nat.mod_eq_of_lt (by omega)]
    have heq := h.eq_of_eq (by omega : M - a - 1 < n) (by omega : M - a + (M % n - 1) < n)
      (hlast.trans hagain.symm)
    omega
  · have hbefore : (a + (n - M % n - 1)) % M % n = n - 1 - (M - a) := by
      rw [wrap_before (by omega),
        show a + (n - M % n - 1) = n * (M / n) + (n - 1 - (M - a)) by omega,
        Nat.mul_add_mod, Nat.mod_eq_of_lt (by omega)]
    have hagain : (a + (n - 1)) % M % n = n - 1 - (M - a) := by
      rw [wrap_behind (by omega : n - 1 - (M - a) < M) (by omega), Nat.mod_eq_of_lt (by omega)]
    have heq := h.eq_of_eq (by omega : n - M % n - 1 < n) (by omega : n - 1 < n)
      (hbefore.trans hagain.symm)
    omega

theorem covers_wrap_iff (ha : a < M) : Covers n (fun i => (a + i) % M % n) ↔ a + n ≤ M ∨ n ∣ M := by
  constructor
  · intro h
    by_cases hwrap : a + n ≤ M
    · exact .inl hwrap
    · exact .inr (dvd_of_covers_wrap ha (by omega) h)
  · rintro (hle | hdvd)
    · refine (covers_mod a n).congr fun i hi => ?_
      rw [wrap_before (by omega : a + i < M)]
    · refine (covers_mod a n).congr fun i _ => ?_
      exact (Nat.mod_mod_of_dvd (a + i) hdvd).symm

end

section

variable {α : Type*} (xs : List α)

/-- The entries of a list at the first `n` values, as far as there are such entries. -/
def visits (f : ℕ → ℕ) (n : ℕ) : List α := (List.range n).filterMap fun i => xs[f i]?

variable {xs}

theorem nodup_visits (hxs : xs.Nodup) (h : Covers xs.length f) : (visits xs f xs.length).Nodup := by
  rw [visits, List.Nodup, pairwise_filterMap]
  refine nodup_range.imp_of_mem ?_
  intro i k hi hk hne x hx y hy hxy
  obtain ⟨hfi, hxi⟩ := List.getElem?_eq_some_iff.mp hx
  obtain ⟨hfk, hyk⟩ := List.getElem?_eq_some_iff.mp hy
  have hf : f i = f k := (hxs.getElem_inj_iff).mp (hxi.trans (hxy.trans hyk.symm))
  exact hne (h.eq_of_eq (mem_range.mp hi) (mem_range.mp hk) hf)

/-- The entries of a list without repetitions are visited once each exactly if the values cover
all its positions. -/
theorem count_visits_iff [DecidableEq α] (hxs : xs.Nodup) :
    (∀ x ∈ xs, (visits xs f xs.length).count x = 1) ↔ Covers xs.length f := by
  constructor
  · intro h j hj
    have hmem : xs[j] ∈ visits xs f xs.length :=
      count_pos_iff.mp (by rw [h _ (getElem_mem hj)]; exact Nat.one_pos)
    obtain ⟨i, hi, hij⟩ := mem_filterMap.mp hmem
    obtain ⟨hfi, heq⟩ := List.getElem?_eq_some_iff.mp hij
    exact ⟨i, mem_range.mp hi, (hxs.getElem_inj_iff).mp heq⟩
  · intro h x hx
    obtain ⟨j, hj, rfl⟩ := mem_iff_getElem.mp hx
    obtain ⟨i, hi, hij⟩ := h j hj
    refine count_eq_one_of_mem (nodup_visits hxs h) ?_
    refine mem_filterMap.mpr ⟨i, mem_range.mpr hi, ?_⟩
    rw [hij, getElem?_eq_getElem hj]

end

end CyclicCover
