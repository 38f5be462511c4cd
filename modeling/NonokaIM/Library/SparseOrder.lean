import Mathlib.Data.List.Sort

/-! Lists in which the entries with a key ascend, and entries without one stand anywhere. -/

namespace SparseOrder

open List

variable {α κ : Type*} (key : α → Option κ)

/-- The keys of a list, in its order. -/
def keys (xs : List α) : List κ := xs.filterMap key

variable {key}

@[simp] theorem keys_nil : keys key [] = [] := rfl

@[simp] theorem keys_append (xs ys : List α) : keys key (xs ++ ys) = keys key xs ++ keys key ys :=
  filterMap_append

theorem keys_cons (x : α) (xs : List α) : keys key (x :: xs) = (key x).toList ++ keys key xs := by
  cases hx : key x with
  | none => exact filterMap_cons_none hx
  | some k => exact filterMap_cons_some hx

variable {xs ys : List α} {x : α} {k j : κ}

theorem keys_perm (h : xs.Perm ys) : (keys key xs).Perm (keys key ys) :=
  h.filterMap key

theorem mem_keys (hx : x ∈ xs) (hk : key x = some k) : k ∈ keys key xs :=
  mem_filterMap.mpr ⟨x, hx, hk⟩

theorem mem_keys_cons (hx : key x = some k) : j ∈ keys key (x :: xs) ↔ j = k ∨ j ∈ keys key xs := by
  rw [keys_cons, hx, Option.toList_some, singleton_append, mem_cons]

variable [LinearOrder κ]

variable (key) in
def Ascending (xs : List α) : Prop := (keys key xs).Pairwise (· < ·)

theorem ascending_nil : Ascending key [] := Pairwise.nil

theorem ascending_between :
    Ascending key (xs ++ x :: ys) ↔
      Ascending key (xs ++ ys) ∧
        ∀ k ∈ key x, (∀ j ∈ keys key xs, j < k) ∧ ∀ j ∈ keys key ys, k < j := by
  cases hx : key x with
  | none => simp [Ascending, keys_cons, hx]
  | some k =>
    simp only [Ascending, keys_append, keys_cons, hx, Option.toList_some, pairwise_append,
      pairwise_cons, cons_append, nil_append, mem_cons, Option.mem_def,
      Option.some.injEq, forall_eq']
    constructor
    · rintro ⟨hxs, ⟨hk, hys⟩, hcross⟩
      exact ⟨⟨hxs, hys, fun a ha b hb => hcross a ha b (.inr hb)⟩,
        fun a ha => hcross a ha k (.inl rfl), hk⟩
    · rintro ⟨⟨hxs, hys, hcross⟩, hbefore, hafter⟩
      refine ⟨hxs, ⟨hafter, hys⟩, fun a ha b hb => ?_⟩
      rcases hb with rfl | hb
      · exact hbefore a ha
      · exact hcross a ha b hb

theorem ascending_concat :
    Ascending key (xs ++ [x]) ↔
      Ascending key xs ∧ ∀ k ∈ key x, ∀ j ∈ keys key xs, j < k := by
  rw [ascending_between, append_nil]
  simp

theorem Ascending.le_last (hxs : Ascending key xs) (hlast : xs.getLast? = some x)
    (hx : key x = some k) : ∀ j ∈ keys key xs, j ≤ k := by
  obtain ⟨front, rfl⟩ := getLast?_eq_some_iff.mp hlast
  intro j hj
  rw [keys_append, keys_cons, hx, mem_append] at hj
  rcases hj with hj | hj
  · exact ((ascending_concat.mp hxs).2 k hx j hj).le
  · exact (by simpa using hj : j = k).le

theorem Ascending.sublist (h : Ascending key ys) (hsub : xs.Sublist ys) : Ascending key xs :=
  Pairwise.sublist (hsub.filterMap key) h

/-! ## Insertion in front of the first larger key -/

/-- Whether an entry has a key above `k`. -/
def above (key : α → Option κ) (k : κ) (x : α) : Bool := (key x).any (k < ·)

theorem above_iff : above key k x = true ↔ ∃ i, key x = some i ∧ k < i := by
  simp [above, Option.any_eq_true]

theorem findIdx_above_of_above (hx : above key k x = true) :
    (x :: xs).findIdx (above key k) = 0 := by
  simp [findIdx_cons, hx]

theorem findIdx_above_of_not (hx : ¬ above key k x = true) :
    (x :: xs).findIdx (above key k) = xs.findIdx (above key k) + 1 := by
  simp [findIdx_cons, hx]

theorem lt_of_mem_keys_take (hnew : k ∉ keys key xs) :
    ∀ j ∈ keys key (xs.take (xs.findIdx (above key k))), j < k := by
  induction xs with
  | nil => simp
  | cons x xs ih =>
    rw [keys_cons, mem_append, not_or] at hnew
    by_cases hx : above key k x
    · simp [findIdx_above_of_above hx]
    rw [findIdx_above_of_not hx, take_succ_cons, keys_cons]
    intro j hj
    rcases mem_append.mp hj with hhead | htail
    · have hle : j ≤ k := by
        by_contra hlt
        exact hx (above_iff.mpr ⟨j, Option.mem_toList.mp hhead, lt_of_not_ge hlt⟩)
      have hne : j ≠ k := fun heq => hnew.1 (heq ▸ hhead)
      exact lt_of_le_of_ne hle hne
    · exact ih hnew.2 j htail

theorem lt_of_mem_keys_drop (hxs : Ascending key xs) :
    ∀ j ∈ keys key (xs.drop (xs.findIdx (above key k))), k < j := by
  induction xs with
  | nil => simp
  | cons x xs ih =>
    by_cases hx : above key k x
    · obtain ⟨i, hi, hki⟩ := above_iff.mp hx
      rw [Ascending, keys_cons, hi, Option.toList_some, singleton_append, pairwise_cons] at hxs
      rw [findIdx_above_of_above hx, drop_zero, keys_cons, hi, Option.toList_some, singleton_append]
      intro j hj
      rcases mem_cons.mp hj with rfl | hj
      · exact hki
      · exact hki.trans (hxs.1 j hj)
    · rw [findIdx_above_of_not hx, drop_succ_cons]
      exact ih (hxs.sublist (sublist_cons_self x xs))

theorem Ascending.insert (hxs : Ascending key xs) (hx : key x = some k) (hnew : k ∉ keys key xs) :
    Ascending key
      (xs.take (xs.findIdx (above key k)) ++ x :: xs.drop (xs.findIdx (above key k))) := by
  refine ascending_between.mpr ⟨?_, ?_⟩
  · rwa [take_append_drop]
  · intro j hj
    obtain rfl : k = j := Option.some.inj (hx.symm.trans hj)
    exact ⟨lt_of_mem_keys_take hnew, lt_of_mem_keys_drop hxs⟩

theorem ascending_iff_nodup {d : κ} (hperm : ys.Perm xs)
    (hsorted : ys.Pairwise fun a b => (key a).getD d ≤ (key b).getD d) :
    Ascending key ys ↔ (keys key xs).Nodup := by
  have hle : (keys key ys).Pairwise (· ≤ ·) := by
    rw [keys, pairwise_filterMap]
    refine hsorted.imp ?_
    intro a b hab i hi j hj
    simpa [Option.mem_def.mp hi, Option.mem_def.mp hj] using hab
  rw [← (keys_perm hperm).nodup_iff, Ascending]
  constructor
  · intro hlt
    exact hlt.imp ne_of_lt
  · intro hnodup
    exact (hle.and hnodup).imp fun h => lt_of_le_of_ne h.1 h.2

/-! ## The largest key -/

/-- The entries with the largest key. -/
def top (key : α → Option κ) (xs : List α) : List α :=
  xs.filter fun x => (key x).any fun k => (keys key xs).all (· ≤ k)

theorem mem_top : x ∈ top key xs ↔ x ∈ xs ∧ ∃ k, key x = some k ∧ ∀ j ∈ keys key xs, j ≤ k := by
  simp [top, Option.any_eq_true]

theorem mem_top_of_perm (h : xs.Perm ys) : x ∈ top key xs ↔ x ∈ top key ys := by
  simp only [mem_top, h.mem_iff, (keys_perm h).mem_iff]

theorem top_map {f : α → α} (hf : ∀ x, key (f x) = key x) (xs : List α) :
    top key (xs.map f) = (top key xs).map f := by
  have hkeys : keys key (xs.map f) = keys key xs := by
    rw [keys, filterMap_map]
    exact filterMap_congr fun x _ => hf x
  rw [top, hkeys, filter_map]
  congr 2
  funext x
  rw [Function.comp_apply, hf]

theorem mem_top_cons_of_above {y : α} (hx : key x = some k) (habove : ∀ j ∈ keys key xs, j < k) :
    y ∈ top key (x :: xs) ↔ y = x := by
  rw [mem_top]
  constructor
  · rintro ⟨hy, i, hi, hle⟩
    refine (mem_cons.mp hy).resolve_right fun hmem => ?_
    have hik : i < k := habove i (mem_keys hmem hi)
    exact absurd (hle k ((mem_keys_cons hx).mpr (.inl rfl))) (not_le_of_gt hik)
  · rintro rfl
    refine ⟨mem_cons_self, k, hx, fun j hj => ?_⟩
    rcases (mem_keys_cons hx).mp hj with rfl | hj
    · exact le_refl j
    · exact (habove j hj).le

theorem mem_top_cons_of_below {y : α} (hx : key x = some k) (hj : j ∈ keys key xs) (hkj : k < j) :
    y ∈ top key (x :: xs) ↔ y ∈ top key xs := by
  rw [mem_top, mem_top]
  constructor
  · rintro ⟨hy, i, hi, hle⟩
    have hji : j ≤ i := hle j ((mem_keys_cons hx).mpr (.inr hj))
    refine ⟨(mem_cons.mp hy).resolve_left ?_, i, hi, ?_⟩
    · rintro rfl
      obtain rfl : k = i := Option.some.inj (hx.symm.trans hi)
      exact absurd hkj (not_lt_of_ge hji)
    · exact fun n hn => hle n ((mem_keys_cons hx).mpr (.inr hn))
  · rintro ⟨hy, i, hi, hle⟩
    refine ⟨mem_cons_of_mem x hy, i, hi, fun n hn => ?_⟩
    rcases (mem_keys_cons hx).mp hn with rfl | hn
    · exact (hkj.trans_le (hle j hj)).le
    · exact hle n hn

/-! ## The least key first -/

variable (key) in
/-- The first entry has a key, and it is not above `k`. -/
def firstLe (xs : List α) (k : κ) : Bool := (xs.head?.bind key).any (· ≤ k)

variable (key) in
/-- If any entry has a key, the first one has the least. -/
def LeastFirst (xs : List α) : Prop := ∀ j ∈ keys key xs, firstLe key xs j = true

theorem leastFirst_nil : LeastFirst key [] := fun _ h => absurd h not_mem_nil

theorem firstLe_cons :
    firstLe key (x :: xs) k = (key x).any (· ≤ k) := rfl

theorem firstLe_mono (h : firstLe key xs j = true) (hjk : j ≤ k) : firstLe key xs k = true := by
  unfold firstLe at h ⊢
  cases hx : xs.head?.bind key with
  | none =>
    rw [hx] at h
    cases h
  | some i =>
    rw [hx, Option.any_some, decide_eq_true_eq] at h
    rw [Option.any_some, decide_eq_true_eq]
    exact h.trans hjk

theorem LeastFirst.head (h : LeastFirst key (x :: xs)) (hj : j ∈ keys key (x :: xs)) :
    ∃ i, key x = some i ∧ ∀ k ∈ keys key (x :: xs), i ≤ k := by
  have hfirst := h j hj
  rw [firstLe_cons] at hfirst
  cases hx : key x with
  | none => simp [hx] at hfirst
  | some i =>
    refine ⟨i, rfl, fun k hk => ?_⟩
    have hle := h k hk
    rwa [firstLe_cons, hx, Option.any_some, decide_eq_true_eq] at hle

theorem leastFirst_cons (hx : key x = some k) :
    LeastFirst key (x :: xs) ↔ ∀ j ∈ keys key xs, k ≤ j := by
  have hfirst : ∀ j, firstLe key (x :: xs) j = true ↔ k ≤ j := by
    intro j
    rw [firstLe_cons, hx, Option.any_some, decide_eq_true_eq]
  constructor
  · intro h j hj
    exact (hfirst j).mp (h j ((mem_keys_cons hx).mpr (.inr hj)))
  · intro h j hj
    rw [hfirst]
    rcases (mem_keys_cons hx).mp hj with rfl | hj
    · exact le_refl j
    · exact h j hj

theorem leastFirst_iff_head? {q : κ} (hq : q ∈ keys key xs) (hle : ∀ j ∈ keys key xs, q ≤ j) :
    LeastFirst key xs ↔ xs.head?.bind key = some q := by
  constructor
  · intro h
    cases xs with
    | nil => exact absurd hq not_mem_nil
    | cons x xs =>
      obtain ⟨i, hi, hfirst⟩ := h.head hq
      have hiq : i = q := le_antisymm (hfirst q hq) (hle i (mem_keys mem_cons_self hi))
      rw [← hiq]
      exact hi
  · intro h j hj
    rw [firstLe, h, Option.any_some, decide_eq_true_eq]
    exact hle j hj

theorem leastFirst_concat (h : LeastFirst key xs) (hxs : xs ≠ []) :
    LeastFirst key (xs ++ [x]) ↔ ∀ k ∈ key x, firstLe key xs k = true := by
  have hfirst : ∀ k, firstLe key (xs ++ [x]) k = firstLe key xs k := by
    intro k
    rw [firstLe, head?_append_of_ne_nil _ hxs]
    rfl
  unfold LeastFirst
  simp only [hfirst, keys_append, mem_append]
  constructor
  · intro hall k hk
    exact hall k (.inr (mem_keys (mem_singleton.mpr rfl) hk))
  · rintro hall k (hk | hk)
    · exact h k hk
    · rw [keys_cons, keys_nil, append_nil] at hk
      exact hall k (Option.mem_toList.mp hk)

theorem LeastFirst.insert (h : LeastFirst key xs) (hj : j ∈ keys key xs) (hx : key x = some k) :
    LeastFirst key
      (xs.take (xs.findIdx (above key k)) ++ x :: xs.drop (xs.findIdx (above key k))) := by
  cases xs with
  | nil => exact absurd hj not_mem_nil
  | cons y ys =>
    obtain ⟨i, hi, hle⟩ := h.head hj
    by_cases hy : above key k y = true
    · rw [findIdx_above_of_above hy]
      obtain ⟨n, hn, hkn⟩ := above_iff.mp hy
      obtain rfl : i = n := Option.some.inj (hi.symm.trans hn)
      refine (leastFirst_cons hx).mpr fun m hm => ?_
      exact hkn.le.trans (hle m hm)
    · rw [findIdx_above_of_not hy, take_succ_cons, drop_succ_cons, cons_append]
      have hik : i ≤ k := le_of_not_gt fun hki => hy (above_iff.mpr ⟨i, hi, hki⟩)
      refine (leastFirst_cons hi).mpr fun m hm => ?_
      rw [keys_append, mem_append, mem_keys_cons hx] at hm
      have hold : ∀ m ∈ keys key ys, i ≤ m := fun m hm => hle m ((mem_keys_cons hi).mpr (.inr hm))
      rcases hm with hm | rfl | hm
      · exact hold m (((take_sublist _ ys).filterMap key).subset hm)
      · exact hik
      · exact hold m (((drop_sublist _ ys).filterMap key).subset hm)

theorem leastFirst_modify_succ {f : α → α} {n : ℕ} {q : κ} (h : LeastFirst key (x :: xs))
    (hn : n < xs.length) (hf : ∀ y, key (f y) = some q) :
    LeastFirst key ((x :: xs).modify (n + 1) f) ↔ firstLe key (x :: xs) q = true := by
  rw [modify_succ_cons, modify_eq_take_cons_drop hn]
  have hkeys : ∀ j, j ∈ keys key (x :: (xs.take n ++ f xs[n] :: xs.drop (n + 1))) →
      j = q ∨ j ∈ keys key (x :: xs) := by
    intro j hj
    rw [← cons_append, keys_append, mem_append, mem_keys_cons (hf _)] at hj
    rcases hj with hj | rfl | hj
    · exact .inr ((((take_sublist n xs).cons_cons x).filterMap key).subset hj)
    · exact .inl rfl
    · exact .inr ((((drop_sublist (n + 1) xs).cons x).filterMap key).subset hj)
  constructor
  · intro hleast
    refine hleast q (mem_keys ?_ (hf xs[n]))
    simp
  · intro hfirst j hj
    rcases hkeys j hj with rfl | hj
    · exact hfirst
    · exact h j hj

/-! A sort by the keys counts the entries without one as if they had the least possible one. -/

section

variable {d : κ}

theorem head?_orderedInsert {r : α → α → Prop} [DecidableRel r] {x y : α} {ys : List α}
    (h : ys.head? = some y) :
    (ys.orderedInsert r x).head? = some (if r x y then x else y) := by
  cases ys with
  | nil => cases h
  | cons z ys =>
    obtain rfl : z = y := Option.some.inj h
    by_cases hr : r x z
    · rw [orderedInsert_cons_of_le r ys hr, if_pos hr]
      rfl
    · rw [orderedInsert_of_not_le r ys hr, if_neg hr]
      rfl

/-- The sort is stable: of the entries that count as least the first one stays the first. -/
theorem head?_sorted_of_find? (hd : ∀ k, d ≤ k) {xs : List α} {x : α}
    (hx : xs.find? (fun y => (key y).getD d = d) = some x) :
    (xs.insertionSort fun a b => (key a).getD d ≤ (key b).getD d).head? = some x := by
  induction xs with
  | nil => cases hx
  | cons y ys ih =>
    rw [insertionSort_cons]
    by_cases hy : (key y).getD d = d
    · rw [find?_cons_of_pos (by simpa using hy)] at hx
      obtain rfl : y = x := Option.some.inj hx
      cases hhead : (ys.insertionSort fun a b => (key a).getD d ≤ (key b).getD d).head? with
      | none =>
        rw [head?_eq_none_iff.mp hhead]
        rfl
      | some z => rw [head?_orderedInsert hhead, if_pos (hy.trans_le (hd _))]
    · rw [find?_cons_of_neg (by simpa using hy)] at hx
      have hxd : (key x).getD d = d := by simpa using find?_some hx
      have hnot : ¬ (key y).getD d ≤ (key x).getD d := by
        rw [hxd]
        exact fun hle => hy (le_antisymm hle (hd _))
      rw [head?_orderedInsert (ih hx), if_neg hnot]

theorem leastFirst_sorted (hd : ∀ k, d ≤ k) {xs : List α} (hkeys : keys key xs ≠ []) :
    LeastFirst key (xs.insertionSort fun a b => (key a).getD d ≤ (key b).getD d) ↔
      ∀ x, xs.find? (fun y => (key y).getD d = d) = some x → (key x).isSome = true := by
  have hperm := perm_insertionSort (fun a b => (key a).getD d ≤ (key b).getD d) xs
  have hsorted := pairwise_insertionSort (fun a b => (key a).getD d ≤ (key b).getD d) xs
  have hhead : ∀ x, xs.find? (fun y => (key y).getD d = d) = some x →
      (xs.insertionSort fun a b => (key a).getD d ≤ (key b).getD d).head? = some x :=
    fun x => head?_sorted_of_find? hd
  generalize (xs.insertionSort fun a b => (key a).getD d ≤ (key b).getD d) = ys
    at hperm hsorted hhead ⊢
  obtain ⟨j, hj⟩ := exists_mem_of_ne_nil _ hkeys
  have hj' : j ∈ keys key ys := (keys_perm hperm).mem_iff.mpr hj
  cases ys with
  | nil => exact absurd hj' not_mem_nil
  | cons z ys =>
    constructor
    · intro hleast x hx
      obtain rfl : z = x := Option.some.inj (hhead x hx)
      obtain ⟨i, hi, -⟩ := hleast.head hj'
      rw [hi]
      rfl
    · intro hfind
      cases hz : key z with
      | none =>
        -- an entry without a key is first, so it is the one that was found
        have hsome : (xs.find? fun y => (key y).getD d = d).isSome = true := by
          rw [find?_isSome]
          exact ⟨z, hperm.mem_iff.mp mem_cons_self, by simp [hz]⟩
        obtain ⟨x, hx⟩ := Option.isSome_iff_exists.mp hsome
        obtain rfl : z = x := Option.some.inj (hhead x hx)
        have hkey := hfind z hx
        rw [hz] at hkey
        cases hkey
      | some i =>
        refine (leastFirst_cons hz).mpr fun k hk => ?_
        obtain ⟨y, hy, hyk⟩ := mem_filterMap.mp hk
        simpa [hz, hyk] using rel_of_pairwise_cons hsorted hy

end

end SparseOrder
