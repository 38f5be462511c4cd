import Mathlib.Data.List.Basic

/-! Splitting a list into chunks of one size, the last of which may be short or missing. -/

namespace Chunks

open List

variable {α : Type*}

/-- The entries from `start` up to `stop`. -/
def slice (start stop : ℕ) (xs : List α) : List α :=
  (xs.drop start).take (stop - start)

/-- The size of the chunks of `n` entries for `workers` workers. -/
def chunkSize (n workers : ℕ) : ℕ := (n + workers - 1) / workers

/-- The bounds of the chunks from the `i`-th worker on; a worker behind the end gets none. -/
def bounds (n size : ℕ) : ℕ → ℕ → List (ℕ × ℕ)
  | 0, _ => []
  | workers + 1, i =>
    if n ≤ i * size then []
    else (i * size, min (i * size + size) n) :: bounds n size workers (i + 1)

theorem slice_min (start stop : ℕ) (xs : List α) :
    slice start (min stop xs.length) xs = slice start stop xs := by
  rcases Nat.le_total stop xs.length with h | h
  · rw [Nat.min_eq_left h]
  · have hlen : (xs.drop start).length ≤ xs.length - start := Nat.le_of_eq length_drop
    rw [Nat.min_eq_right h, slice, slice, take_of_length_le hlen, take_of_length_le (by omega)]

theorem slice_append {a b c : ℕ} (hab : a ≤ b) (hbc : b ≤ c) (xs : List α) :
    slice a b xs ++ slice b c xs = slice a c xs := by
  have hdrop : xs.drop b = (xs.drop a).drop (b - a) := by
    rw [drop_drop, Nat.add_sub_cancel' hab]
  have hsum : c - a = (b - a) + (c - b) := by omega
  rw [slice, slice, slice, hdrop, hsum, take_add]

theorem slice_zipIdx (start stop : ℕ) (xs : List α) :
    slice start stop xs.zipIdx = (slice start stop xs).zipIdx start := by
  apply ext_getElem?
  intro i
  simp only [slice, getElem?_zipIdx, getElem?_take, getElem?_drop]
  split
  · rw [Nat.zero_add]
  · rfl

theorem flatMap_bounds (size : ℕ) (xs : List α) (workers i : ℕ) :
    (bounds xs.length size workers i).flatMap (fun b => slice b.1 b.2 xs) =
      slice (i * size) ((i + workers) * size) xs := by
  induction workers generalizing i with
  | zero => rw [bounds, Nat.add_zero, slice, Nat.sub_self, take_zero, flatMap_nil]
  | succ workers ih =>
    rw [bounds]
    split
    · rename_i hend
      rw [slice, drop_of_length_le hend, take_nil, flatMap_nil]
    · have hstep : i * size + size = (i + 1) * size := (Nat.succ_mul i size).symm
      rw [flatMap_cons, ih, slice_min, hstep,
        slice_append (Nat.mul_le_mul_right _ (by omega)) (Nat.mul_le_mul_right _ (by omega)),
        Nat.add_right_comm, Nat.add_assoc]

variable {workers : ℕ}

theorem le_mul_chunkSize (n : ℕ) (h : 0 < workers) : n ≤ workers * chunkSize n workers := by
  have hdiv := Nat.div_add_mod (n + workers - 1) workers
  have hmod := Nat.mod_lt (n + workers - 1) h
  rw [chunkSize]
  omega

theorem chunkSize_pos {n : ℕ} (hn : 0 < n) (h : 0 < workers) : 0 < chunkSize n workers := by
  by_contra hzero
  have hle := le_mul_chunkSize n h
  rw [Nat.eq_zero_of_not_pos hzero] at hle
  omega

theorem flatMap_chunks (xs : List α) (h : 0 < workers) :
    (bounds xs.length (chunkSize xs.length workers) workers 0).flatMap
      (fun b => slice b.1 b.2 xs) = xs := by
  rw [flatMap_bounds, Nat.zero_mul, Nat.zero_add, slice, drop_zero, Nat.sub_zero]
  exact take_of_length_le (le_mul_chunkSize _ h)

theorem mem_bounds {n size i start stop : ℕ} (h : (start, stop) ∈ bounds n size workers i) :
    ∃ j, start = j * size ∧ stop ≤ start + size := by
  induction workers generalizing i with
  | zero => cases h
  | succ workers ih =>
    rw [bounds] at h
    split at h
    · cases h
    rcases mem_cons.mp h with heq | h
    · obtain ⟨rfl, rfl⟩ := Prod.mk.inj heq
      exact ⟨i, rfl, Nat.min_le_left _ _⟩
    · exact ih h

end Chunks
