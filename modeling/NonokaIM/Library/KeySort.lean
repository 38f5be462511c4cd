import Mathlib.Data.List.Sort

/-! Lists that are sorted by a key, and what a sort leaves open: the order of the entries with
equal keys. -/

namespace KeySort

open List

variable {α κ : Type*} [LinearOrder κ] (key : α → κ)

def Sorted (xs : List α) : Prop := xs.Pairwise fun a b => key a ≤ key b

variable {key} {xs ys : List α}

theorem keys_eq (hperm : ys.Perm xs) (hx : Sorted key xs) (hy : Sorted key ys) :
    ys.map key = xs.map key := by
  have hxs : (xs.map key).Pairwise (· ≤ ·) := pairwise_map.mpr hx
  have hys : (ys.map key).Pairwise (· ≤ ·) := pairwise_map.mpr hy
  exact (hperm.map key).eq_of_pairwise' hys hxs

variable {n : ℕ}

theorem take_eq_of_alone (hperm : ys.Perm xs) (hx : Sorted key xs)
    (hy : Sorted key ys) (halone : ∀ x ∈ xs.take n, ∀ y ∈ xs, key y = key x → y = x) :
    ys.take n = xs.take n := by
  have hkeys := keys_eq hperm hx hy
  apply ext_getElem?
  intro i
  by_cases hi : i < n
  · rw [getElem?_take_of_lt hi, getElem?_take_of_lt hi]
    have hkey := congrArg (·[i]?) hkeys
    simp only [getElem?_map] at hkey
    cases hxi : xs[i]? with
    | none =>
      rw [hxi] at hkey
      simpa using hkey
    | some x =>
      rw [hxi] at hkey
      obtain ⟨y, hyi, hyx⟩ := Option.map_eq_some_iff.mp hkey
      have hxmem : x ∈ xs.take n :=
        mem_of_getElem? (i := i) (by rw [getElem?_take_of_lt hi, hxi])
      have hymem : y ∈ xs := hperm.mem_iff.mp (mem_of_getElem? hyi)
      rw [hyi, halone x hxmem y hymem hyx]
  · rw [getElem?_eq_none (by simp; omega), getElem?_eq_none (by simp; omega)]

theorem exists_exchanged (hx : Sorted key xs) {x y : α}
    (hxmem : x ∈ xs.take n) (hymem : y ∈ xs) (hkey : key y = key x) (hne : y ≠ x) :
    ∃ ys : List α, ys.Perm xs ∧ Sorted key ys ∧ ys.take n ≠ xs.take n := by
  obtain ⟨i, hi, hxi⟩ := mem_take_iff_getElem.mp hxmem
  obtain ⟨j, hj, hyj⟩ := mem_iff_getElem.mp hymem
  have hilen : i < xs.length := by omega
  have hin : i < n := by omega
  have hij : j ≠ i := by
    rintro rfl
    exact hne (hyj.symm.trans hxi)
  have hkeep : ∀ (k : ℕ) (hk : k < xs.length) v, v = key xs[k] →
      (xs.map key).set k v = xs.map key := by
    intro k hk v hv
    rw [hv, ← getElem_map key (h := by simpa using hk), set_getElem_self]
  refine ⟨(xs.set i xs[j]).set j xs[i], set_set_perm hilen hj, ?_, ?_⟩
  · have hmap : ((xs.set i xs[j]).set j xs[i]).map key = xs.map key := by
      rw [map_set, map_set, hkeep i hilen _ (by rw [hyj, hxi, hkey]),
        hkeep j hj _ (by rw [hyj, hxi, hkey])]
    have hkeys : (xs.map key).Pairwise (· ≤ ·) := pairwise_map.mpr hx
    exact pairwise_map.mp (hmap ▸ hkeys)
  · intro heq
    have hat := congrArg (·[i]?) heq
    simp only [getElem?_take_of_lt hin, getElem?_set_ne hij,
      getElem?_set_self hilen, getElem?_eq_getElem hilen, Option.some.injEq] at hat
    exact hne (hyj.symm.trans (hat.trans hxi))

/-- What the first `n` entries are does not depend on the sort exactly if none of them shares its
key with another entry. -/
theorem take_eq_iff (hx : Sorted key xs) :
    (∀ ys : List α, ys.Perm xs → Sorted key ys → ys.take n = xs.take n) ↔
      ∀ x ∈ xs.take n, ∀ y ∈ xs, key y = key x → y = x := by
  constructor
  · intro hall x hxmem y hymem hkey
    by_contra hne
    obtain ⟨ys, hperm, hsorted, hdiff⟩ := exists_exchanged hx hxmem hymem hkey hne
    exact hdiff (hall ys hperm hsorted)
  · intro halone ys hperm hy
    exact take_eq_of_alone hperm hx hy halone

/-! ## Positions in a sorted list -/

theorem Sorted.split (h : Sorted key xs) (k : κ) :
    xs = xs.filter (key · < k) ++ (xs.filter (key · = k) ++ xs.filter (k < key ·)) := by
  induction xs with
  | nil => rfl
  | cons x xs ih =>
    obtain ⟨hhead, htail⟩ := pairwise_cons.mp h
    have hsplit := ih htail
    rcases lt_trichotomy (key x) k with hlt | heq | hgt
    · rw [filter_cons_of_pos (by simpa using hlt), filter_cons_of_neg (by simpa using hlt.ne),
        filter_cons_of_neg (by simpa using hlt.le), cons_append, ← hsplit]
    · have hnone : xs.filter (key · < k) = [] := by
        simpa [filter_eq_nil_iff, ← heq] using hhead
      rw [hnone, nil_append] at hsplit
      rw [filter_cons_of_neg (by simp [heq]), filter_cons_of_pos (by simpa using heq),
        filter_cons_of_neg (by simp [heq]), hnone, nil_append, cons_append, ← hsplit]
    · have hbelow : xs.filter (key · < k) = [] := by
        simpa [filter_eq_nil_iff] using fun a ha => hgt.le.trans (hhead a ha)
      have hnone : xs.filter (key · = k) = [] := by
        simpa [filter_eq_nil_iff] using fun a ha => (hgt.trans_le (hhead a ha)).ne'
      rw [hbelow, hnone, nil_append, nil_append] at hsplit
      rw [filter_cons_of_neg (by simpa using hgt.le), filter_cons_of_neg (by simpa using hgt.ne'),
        filter_cons_of_pos (by simpa using hgt), hbelow, hnone, nil_append, nil_append, ← hsplit]

theorem countP_le (xs : List α) (k : κ) :
    xs.countP (key · ≤ k) = xs.countP (key · < k) + xs.countP (key · = k) := by
  induction xs with
  | nil => rfl
  | cons x xs ih =>
    rcases lt_trichotomy (key x) k with hlt | heq | hgt
    · rw [countP_cons_of_pos (by simpa using hlt.le), countP_cons_of_pos (by simpa using hlt),
        countP_cons_of_neg (by simpa using hlt.ne), ih]
      omega
    · rw [countP_cons_of_pos (by simp [heq]), countP_cons_of_neg (by simp [heq]),
        countP_cons_of_pos (by simpa using heq), ih]
      omega
    · rw [countP_cons_of_neg (by simpa using hgt), countP_cons_of_neg (by simpa using hgt.le),
        countP_cons_of_neg (by simpa using hgt.ne'), ih]

theorem mem_take_append_cons {y : α} (hy : y ∉ xs) :
    y ∈ (xs ++ y :: ys).take n ↔ xs.length < n := by
  constructor
  · intro h
    by_contra hle
    rw [take_append_of_le_length (by omega)] at h
    exact hy (mem_of_mem_take h)
  · intro h
    obtain ⟨m, rfl⟩ := Nat.exists_eq_add_of_lt h
    rw [take_append, Nat.add_assoc, Nat.add_sub_cancel_left, take_succ_cons]
    exact mem_append_right _ mem_cons_self

/-- In a list sorted by key with the entries of `xs` before those of `ys` where keys are equal, an
entry of `ys` follows the entries of `xs` up to its key and those of `ys` below it. -/
theorem mem_take_iff {l : List α} {y : α} (hl : Sorted key l) (hperm : l.Perm (xs ++ ys))
    (hstable : l.filter (key · = key y) = (xs ++ ys).filter (key · = key y))
    (hy : ys.filter (key · = key y) = [y]) (hx : y ∉ xs) (n : ℕ) :
    y ∈ l.take n ↔ xs.countP (key · ≤ key y) + ys.countP (key · < key y) < n := by
  have hsplit := hl.split (key y)
  rw [hstable, filter_append, hy, append_assoc, singleton_append, ← append_assoc] at hsplit
  have hbefore : y ∉ l.filter (key · < key y) ++ xs.filter (key · = key y) := by
    simp [hx]
  have hcount : (l.filter (key · < key y)).length =
      xs.countP (key · < key y) + ys.countP (key · < key y) := by
    rw [← countP_eq_length_filter, hperm.countP_eq, countP_append]
  rw [hsplit, mem_take_append_cons hbefore, length_append, hcount, countP_le,
    ← countP_eq_length_filter]
  omega

/-- Among the first entries is one with a given key exactly if there is any and the smaller ones
leave room. -/
theorem exists_mem_take_iff {l : List α} (hl : Sorted key l) (k : κ) (n : ℕ) :
    (∃ x ∈ l.take n, key x = k) ↔ (∃ x ∈ l, key x = k) ∧ l.countP (key · < k) < n := by
  have hsplit := hl.split k
  cases hequal : l.filter (key · = k) with
  | nil =>
    have hnone : ¬ ∃ x ∈ l, key x = k := by simpa [filter_eq_nil_iff] using hequal
    exact iff_of_false (fun ⟨x, hx, hk⟩ => hnone ⟨x, mem_of_mem_take hx, hk⟩) fun h => hnone h.1
  | cons y ys =>
    have hy : y ∈ l.filter (key · = k) := hequal ▸ mem_cons_self
    obtain ⟨hyl, hyk⟩ : y ∈ l ∧ key y = k := by simpa using hy
    rw [hequal, cons_append] at hsplit
    have hbelow : ∀ x ∈ l.filter (key · < k), key x ≠ k := by
      intro x hx
      exact (of_decide_eq_true (mem_filter.mp hx).2).ne
    rw [and_iff_right ⟨y, hyl, hyk⟩, countP_eq_length_filter]
    constructor
    · rintro ⟨x, hx, hxk⟩
      by_contra hle
      rw [hsplit, take_append_of_le_length (by omega)] at hx
      exact hbelow x (mem_of_mem_take hx) hxk
    · intro hlt
      refine ⟨y, ?_, hyk⟩
      rw [hsplit]
      exact (mem_take_append_cons fun hmem => hbelow y hmem hyk).mpr hlt

theorem Sorted.countP_take (h : Sorted key xs) {p : α → Bool}
    (hp : ∀ a b, key a ≤ key b → p b = true → p a = true) (n : ℕ) :
    (xs.take n).countP p = min n (xs.countP p) := by
  induction xs generalizing n with
  | nil => simp
  | cons x xs ih =>
    obtain ⟨hhead, htail⟩ := pairwise_cons.mp h
    cases n with
    | zero => simp
    | succ n =>
      by_cases hx : p x = true
      · rw [take_succ_cons, countP_cons_of_pos hx, countP_cons_of_pos hx, ih htail]
        omega
      · have hnone : xs.countP p = 0 := by
          rw [countP_eq_zero]
          exact fun a ha hpa => hx (hp x a (hhead a ha) hpa)
        rw [take_succ_cons, countP_cons_of_neg hx, countP_cons_of_neg hx, ih htail, hnone]
        omega

end KeySort
