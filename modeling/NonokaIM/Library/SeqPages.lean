import Mathlib.Data.List.Sort

/-! Paging through an ascending list of numbers, some of them twice. The next cursor is the
successor of the last entry, so an entry right above a full page is passed over. -/

namespace SeqPages

open List

variable (twice : ℕ → Bool)

/-- The list with the entries marked by `twice` repeated. -/
def doubled : List ℕ → List ℕ
  | [] => []
  | x :: xs => if twice x then x :: x :: doubled xs else x :: doubled xs

def after (cursor : ℕ) (xs : List ℕ) : List ℕ := xs.filter (cursor < ·)

variable {twice}

/-! ## Doubled lists -/

variable {xs : List ℕ}

@[simp] theorem mem_doubled {x : ℕ} : x ∈ doubled twice xs ↔ x ∈ xs := by
  induction xs with
  | nil => exact Iff.rfl
  | cons y ys ih =>
    unfold doubled
    split <;> simp [ih]

theorem length_le_doubled (xs : List ℕ) : xs.length ≤ (doubled twice xs).length := by
  induction xs with
  | nil => exact Nat.le_refl _
  | cons y ys ih =>
    unfold doubled
    split <;> simp only [length_cons] <;> omega

theorem doubled_of_none (h : ∀ x ∈ xs, twice x = false) : doubled twice xs = xs := by
  induction xs with
  | nil => rfl
  | cons y ys ih =>
    rw [doubled, h y mem_cons_self, ih fun x hx => h x (mem_cons_of_mem _ hx)]
    rfl

theorem doubled_pairwise (h : xs.Pairwise (· < ·)) : (doubled twice xs).Pairwise (· ≤ ·) := by
  induction xs with
  | nil => exact Pairwise.nil
  | cons y ys ih =>
    obtain ⟨hhead, htail⟩ := pairwise_cons.mp h
    have hle : ∀ x ∈ doubled twice ys, y ≤ x :=
      fun x hx => Nat.le_of_lt (hhead x (mem_doubled.mp hx))
    unfold doubled
    split
    · refine pairwise_cons.mpr ⟨?_, pairwise_cons.mpr ⟨hle, ih htail⟩⟩
      intro x hx
      rcases mem_cons.mp hx with rfl | hx
      · exact Nat.le_refl _
      · exact hle x hx
    · exact pairwise_cons.mpr ⟨hle, ih htail⟩

theorem after_doubled (cursor : ℕ) (xs : List ℕ) :
    after cursor (doubled twice xs) = doubled twice (after cursor xs) := by
  induction xs with
  | nil => rfl
  | cons y ys ih =>
    simp only [after] at ih ⊢
    by_cases hy : cursor < y
    · by_cases ht : twice y = true <;> simp [doubled, hy, ht, ih]
    · by_cases ht : twice y = true <;> simp [doubled, hy, ht, ih]

theorem count_doubled (h : xs.Nodup) (x : ℕ) :
    (doubled twice xs).count x = if x ∈ xs then if twice x then 2 else 1 else 0 := by
  induction xs with
  | nil => simp [doubled]
  | cons y ys ih =>
    obtain ⟨hy, hys⟩ := nodup_cons.mp h
    unfold doubled
    by_cases hxy : x = y
    · subst x
      split <;> simp_all
    · have hyx : y ≠ x := fun h => hxy h.symm
      split <;> simp [hxy, hyx, ih hys]

theorem append_perm_doubled {ys zs : List ℕ} (hx : xs.Nodup) (hy : ys.Nodup) (hz : zs.Nodup)
    (hmem : ∀ n, n ∈ zs ↔ n ∈ xs ∨ n ∈ ys) (htwice : ∀ n, twice n = true ↔ n ∈ xs ∧ n ∈ ys) :
    (xs ++ ys).Perm (doubled twice zs) := by
  apply perm_iff_count.mpr
  intro n
  rw [count_append, count_doubled hz, Nodup.count hx, Nodup.count hy]
  have hm := hmem n
  have ht := htwice n
  by_cases h1 : n ∈ xs <;> by_cases h2 : n ∈ ys <;> simp_all

/-- The first `n` entries are those of the list itself exactly if no entry before the last of them
stands twice. -/
theorem take_doubled_iff (h : xs.Nodup) (n : ℕ) :
    (doubled twice xs).take n = xs.take n ↔
      ∀ (i : ℕ) x, i + 1 < n → xs[i]? = some x → twice x = false := by
  induction xs generalizing n with
  | nil => simp [doubled]
  | cons y ys ih =>
    obtain ⟨hy, hys⟩ := nodup_cons.mp h
    cases n with
    | zero => simp
    | succ n =>
      by_cases ht : twice y = true
      · rw [doubled, if_pos ht, take_succ_cons, take_succ_cons]
        cases n with
        | zero => simp
        | succ n =>
          constructor
          · intro heq
            have hmem : y ∈ ys.take (n + 1) := by
              rw [← tail_eq_of_cons_eq heq]
              exact mem_cons_self
            exact absurd (mem_of_mem_take hmem) hy
          · intro hall
            have hfalse := hall 0 y (by omega) rfl
            rw [ht] at hfalse
            cases hfalse
      · rw [doubled, if_neg ht, take_succ_cons, take_succ_cons, cons.injEq]
        simp only [true_and]
        rw [ih hys]
        constructor
        · intro hall i x hi hx
          cases i with
          | zero =>
            obtain rfl : y = x := by simpa using hx
            simpa using ht
          | succ i => exact hall i x (by omega) (by simpa using hx)
        · intro hall i x hi hx
          exact hall (i + 1) x (by omega) (by simpa using hx)

/-! ## Pages -/

/-- All pages from a cursor on; a page that is not full is the last one. -/
def pages (n : ℕ) (xs : List ℕ) : ℕ → ℕ → Option (List ℕ)
  | 0, _ => none
  | fuel + 1, cursor =>
    let page := (after cursor xs).take n
    if n ≤ page.length then
      (pages n xs fuel ((page.getLast?.map (· + 1)).getD 0)).map (page ++ ·)
    else some page

variable (twice) in
/-- Every entry that stands twice is the last one of a page, and no page is followed by the
successor of its last entry. -/
structure Fits (n : ℕ) (xs : List ℕ) : Prop where
  once : ∀ (i : ℕ) x, xs[i]? = some x → twice x = true → (i + 1) % n = 0
  apart : ∀ (i : ℕ) x y, xs[i]? = some x → xs[i + 1]? = some y → (i + 1) % n = 0 → y ≠ x + 1

theorem fits_short {n : ℕ} (h : xs.length < n) : Fits twice n xs ↔ ∀ x ∈ xs, twice x = false := by
  constructor
  · intro hf x hx
    obtain ⟨i, hi⟩ := mem_iff_getElem?.mp hx
    obtain ⟨hlt, _⟩ := List.getElem?_eq_some_iff.mp hi
    by_contra ht
    have hmod := hf.once i x hi (by simpa using ht)
    rw [Nat.mod_eq_of_lt (by omega)] at hmod
    omega
  · intro hnone
    refine ⟨?_, ?_⟩
    · intro i x hi ht
      rw [hnone x (mem_of_getElem? hi)] at ht
      cases ht
    · intro i x y hi hj hmod
      obtain ⟨hlt, _⟩ := List.getElem?_eq_some_iff.mp hj
      rw [Nat.mod_eq_of_lt (by omega)] at hmod
      omega

section

variable {n : ℕ} {ps rs : List ℕ} (hp : ps.length = n)
include hp

theorem getElem?_page {i : ℕ} (hi : i < n) : (ps ++ rs)[i]? = ps[i]? :=
  getElem?_append_left (by omega)

theorem getElem?_behind (i : ℕ) : (ps ++ rs)[n + i]? = rs[i]? := by
  rw [getElem?_append_right (by omega), hp, Nat.add_sub_cancel_left]

omit hp in
theorem position_behind (i : ℕ) : (n + i + 1) % n = (i + 1) % n := by
  rw [Nat.add_assoc, Nat.add_mod_left]

theorem once_append :
    (∀ (i : ℕ) x, (ps ++ rs)[i]? = some x → twice x = true → (i + 1) % n = 0) ↔
      (∀ (i : ℕ) x, i + 1 < n → ps[i]? = some x → twice x = false) ∧
      ∀ (i : ℕ) x, rs[i]? = some x → twice x = true → (i + 1) % n = 0 := by
  constructor
  · intro h
    constructor
    · intro i x hi hx
      by_contra ht
      have hzero := h i x ((getElem?_page hp (by omega)).trans hx) (by simpa using ht)
      rw [Nat.mod_eq_of_lt hi] at hzero
      omega
    · intro i x hx ht
      rw [← position_behind]
      exact h (n + i) x ((getElem?_behind hp i).trans hx) ht
  · rintro ⟨hpage, hbehind⟩ i x hx ht
    by_cases hi : i < n
    · rw [getElem?_page hp hi] at hx
      have hlast : i + 1 = n := by
        by_contra hne
        rw [hpage i x (by omega) hx] at ht
        cases ht
      rw [hlast, Nat.mod_self]
    · obtain ⟨j, rfl⟩ := Nat.exists_eq_add_of_le (Nat.le_of_not_lt hi)
      rw [getElem?_behind hp] at hx
      rw [position_behind]
      exact hbehind j x hx ht

theorem apart_append {l : ℕ} (hn : 0 < n) (hl : ps.getLast? = some l) :
    (∀ (i : ℕ) x y, (ps ++ rs)[i]? = some x → (ps ++ rs)[i + 1]? = some y → (i + 1) % n = 0 →
        y ≠ x + 1) ↔
      (∀ y, rs.head? = some y → y ≠ l + 1) ∧
      ∀ (i : ℕ) x y, rs[i]? = some x → rs[i + 1]? = some y → (i + 1) % n = 0 → y ≠ x + 1 := by
  rw [getLast?_eq_getElem?, hp] at hl
  constructor
  · intro h
    constructor
    · intro y hy
      rw [head?_eq_getElem?] at hy
      have hnext : (ps ++ rs)[n - 1 + 1]? = some y := by
        rw [Nat.sub_add_cancel hn]
        exact (getElem?_behind hp 0).trans hy
      apply h (n - 1) l y ((getElem?_page hp (by omega)).trans hl) hnext
      rw [Nat.sub_add_cancel hn, Nat.mod_self]
    · intro i x y hx hy hi
      rw [← position_behind] at hi
      exact h (n + i) x y ((getElem?_behind hp i).trans hx)
        ((getElem?_behind hp (i + 1)).trans hy) hi
  · rintro ⟨hpage, hbehind⟩ i x y hx hy hi
    by_cases hin : i < n
    · have hlast : i + 1 = n := by
        by_contra hne
        rw [Nat.mod_eq_of_lt (by omega)] at hi
        omega
      obtain rfl : l = x := by
        rw [getElem?_page hp hin, ← Nat.add_sub_cancel (n := i) (m := 1), hlast, hl] at hx
        exact Option.some.inj hx
      apply hpage y
      rw [head?_eq_getElem?, ← getElem?_behind hp 0, Nat.add_zero, ← hlast]
      exact hy
    · obtain ⟨j, rfl⟩ := Nat.exists_eq_add_of_le (Nat.le_of_not_lt hin)
      rw [getElem?_behind hp] at hx
      rw [Nat.add_assoc, getElem?_behind hp] at hy
      rw [position_behind] at hi
      exact hbehind j x y hx hy hi

theorem fits_append {l : ℕ} (hn : 0 < n) (hl : ps.getLast? = some l) :
    Fits twice n (ps ++ rs) ↔
      (∀ (i : ℕ) x, i + 1 < n → ps[i]? = some x → twice x = false) ∧
      (∀ y, rs.head? = some y → y ≠ l + 1) ∧ Fits twice n rs := by
  constructor
  · intro h
    obtain ⟨hpage, honce⟩ := (once_append hp).mp h.once
    obtain ⟨hhead, hapart⟩ := (apart_append hp hn hl).mp h.apart
    exact ⟨hpage, hhead, honce, hapart⟩
  · rintro ⟨hpage, hhead, h⟩
    exact ⟨(once_append hp).mpr ⟨hpage, h.once⟩, (apart_append hp hn hl).mpr ⟨hhead, h.apart⟩⟩

end

/-! ## Cursors -/

variable {xs : List ℕ}

theorem mem_after {cursor x : ℕ} : x ∈ after cursor xs ↔ x ∈ xs ∧ cursor < x := by
  simp [after]

theorem after_pairwise {r : ℕ → ℕ → Prop} (h : xs.Pairwise r) (cursor : ℕ) :
    (after cursor xs).Pairwise r :=
  h.filter _

theorem after_after {c d : ℕ} (h : c ≤ d) (xs : List ℕ) : after d (after c xs) = after d xs := by
  rw [after, after, after, filter_filter]
  apply filter_congr
  intro x _
  simp only [Bool.and_eq_left_iff_imp, decide_eq_true_eq]
  omega

theorem exists_last {n : ℕ} (hn : 0 < n) {page : List ℕ} (h : n ≤ page.length) :
    ∃ l, page.getLast? = some l := by
  have hne : page ≠ [] := ne_nil_of_length_pos (by omega)
  exact ⟨_, getLast?_eq_some_getLast hne⟩

theorem mem_pages {n : ℕ} (hn : 0 < n) {ys : List ℕ} {fuel cursor : ℕ}
    (h : pages n xs fuel cursor = some ys) : ∀ x ∈ ys, cursor < x := by
  induction fuel generalizing cursor ys with
  | zero => cases h
  | succ fuel ih =>
    intro x hx
    have hpage : ∀ y ∈ (after cursor xs).take n, cursor < y :=
      fun y hy => (mem_after.mp (mem_of_mem_take hy)).2
    simp only [pages] at h
    split at h
    · rename_i hfull
      obtain ⟨l, hl⟩ := exists_last hn hfull
      obtain ⟨zs, hzs, rfl⟩ := Option.map_eq_some_iff.mp h
      rw [hl, Option.map_some, Option.getD_some] at hzs
      rcases mem_append.mp hx with hx | hx
      · exact hpage x hx
      · have hlt := hpage l (mem_of_getLast? hl)
        have hnext := ih hzs x hx
        omega
    · cases h
      exact hpage x hx

/-- Above the successor of a page's last entry stands what follows the page, unless that starts
with the successor itself. -/
theorem after_last_iff {ps rs : List ℕ} {l : ℕ} (h : (ps ++ rs).Pairwise (· < ·))
    (hl : ps.getLast? = some l) :
    after (l + 1) (ps ++ rs) = rs ↔ ∀ y, rs.head? = some y → y ≠ l + 1 := by
  obtain ⟨hps, hrs, hcross⟩ := pairwise_append.mp h
  have hbefore : after (l + 1) ps = [] := by
    apply filter_eq_nil_iff.mpr
    intro x hx
    obtain ⟨ps, rfl⟩ := getLast?_eq_some_iff.mp hl
    have hle : x ≤ l := by
      rcases mem_append.mp hx with hx | hx
      · exact Nat.le_of_lt ((pairwise_append.mp hps).2.2 x hx l (by simp))
      · exact Nat.le_of_eq (mem_singleton.mp hx)
    simp only [decide_eq_true_eq]
    omega
  have hsplit : after (l + 1) (ps ++ rs) = after (l + 1) rs := by
    rw [after, filter_append]
    exact (congrArg (· ++ _) hbefore).trans (nil_append _)
  rw [hsplit, after, filter_eq_self]
  constructor
  · intro hall y hy
    have hlt := hall y (mem_of_head? hy)
    simp only [decide_eq_true_eq] at hlt
    omega
  · intro hhead x hx
    have hlx := hcross l (mem_of_getLast? hl) x hx
    simp only [decide_eq_true_eq]
    cases rs with
    | nil => cases hx
    | cons y ys =>
      have hy := hhead y rfl
      have hly := hcross l (mem_of_getLast? hl) y mem_cons_self
      rcases mem_cons.mp hx with rfl | hx
      · omega
      · have hyx := (pairwise_cons.mp hrs).1 x hx
        omega

theorem fits_full {n l : ℕ} (hn : 0 < n) {rs : List ℕ} (h : rs.Pairwise (· < ·))
    (hlen : n ≤ rs.length) (hl : (rs.take n).getLast? = some l) :
    Fits twice n rs ↔ (doubled twice rs).take n = rs.take n ∧
      after (l + 1) rs = rs.drop n ∧ Fits twice n (rs.drop n) := by
  have hsplit := take_append_drop n rs
  have hbehind : after (l + 1) rs = rs.drop n ↔ ∀ y, (rs.drop n).head? = some y → y ≠ l + 1 := by
    nth_rewrite 1 [← hsplit]
    apply after_last_iff _ hl
    rw [hsplit]
    exact h
  have hpage : (doubled twice rs).take n = rs.take n ↔
      ∀ (i : ℕ) x, i + 1 < n → (rs.take n)[i]? = some x → twice x = false := by
    rw [take_doubled_iff (h.imp Nat.ne_of_lt)]
    refine forall₃_congr fun i x hi => ?_
    rw [getElem?_take_of_lt (by omega)]
  rw [hbehind, hpage, ← fits_append (length_take_of_le hlen) hn hl, hsplit]

section

variable {n : ℕ} (hn : 0 < n) {xs : List ℕ} (hxs : xs.Pairwise (· < ·))
include hxs

theorem pages_short {cursor : ℕ} (hlen : (after cursor xs).length < n) :
    (∃ fuel, pages n (doubled twice xs) fuel cursor = some (after cursor xs)) ↔
      Fits twice n (after cursor xs) := by
  rw [fits_short hlen]
  constructor
  · rintro ⟨fuel, hfuel⟩
    cases fuel with
    | zero => cases hfuel
    | succ fuel =>
      simp only [pages, after_doubled] at hfuel
      split at hfuel
      · rename_i hfull
        obtain ⟨zs, hzs, happ⟩ := Option.map_eq_some_iff.mp hfuel
        have hsum := congrArg length happ
        rw [length_append] at hsum
        omega
      · have hpage := Option.some.inj hfuel
        nth_rewrite 2 [← take_of_length_le (Nat.le_of_lt hlen)] at hpage
        have hone := (take_doubled_iff ((after_pairwise hxs cursor).imp Nat.ne_of_lt) n).mp hpage
        intro x hx
        obtain ⟨i, hi⟩ := mem_iff_getElem?.mp hx
        obtain ⟨hlt, _⟩ := List.getElem?_eq_some_iff.mp hi
        exact hone i x (by omega) hi
  · intro hnone
    refine ⟨1, ?_⟩
    simp only [pages, after_doubled]
    rw [doubled_of_none hnone, take_of_length_le (Nat.le_of_lt hlen), if_neg (by omega)]

include hn

theorem pages_full {cursor l : ℕ} (hlen : n ≤ (after cursor xs).length)
    (hl : ((after cursor xs).take n).getLast? = some l)
    (hnext : (∃ fuel, pages n (doubled twice xs) fuel (l + 1) = some (after (l + 1) xs)) ↔
      Fits twice n (after (l + 1) xs)) :
    (∃ fuel, pages n (doubled twice xs) fuel cursor = some (after cursor xs)) ↔
      Fits twice n (after cursor xs) := by
  have hle : (after cursor xs).length ≤ (doubled twice (after cursor xs)).length :=
    length_le_doubled _
  have hpageLen : ((doubled twice (after cursor xs)).take n).length = n :=
    length_take_of_le (hlen.trans hle)
  have hsplit := take_append_drop n (after cursor xs)
  have hcursor : cursor < l :=
    (mem_after.mp (mem_of_mem_take (mem_of_getLast? hl))).2
  have hbehind : after (l + 1) (after cursor xs) = after (l + 1) xs := after_after (by omega) xs
  rw [fits_full hn (after_pairwise hxs cursor) hlen hl, hbehind]
  constructor
  · rintro ⟨fuel, hfuel⟩
    cases fuel with
    | zero => cases hfuel
    | succ fuel =>
      simp only [pages, after_doubled] at hfuel
      rw [if_pos (Nat.le_of_eq hpageLen.symm)] at hfuel
      obtain ⟨zs, hzs, happ⟩ := Option.map_eq_some_iff.mp hfuel
      nth_rewrite 2 [← hsplit] at happ
      obtain ⟨hpage, rfl⟩ :=
        append_inj happ (hpageLen.trans (length_take_of_le hlen).symm)
      rw [hpage, hl, Option.map_some, Option.getD_some] at hzs
      have hdrop : after (l + 1) xs = (after cursor xs).drop n := by
        rw [← hbehind]
        nth_rewrite 1 [← hsplit]
        apply (after_last_iff (hsplit.symm ▸ after_pairwise hxs cursor) hl).mpr
        intro y hy
        have hlt := mem_pages hn hzs y (mem_of_head? hy)
        omega
      rw [← hdrop] at hzs ⊢
      exact ⟨hpage, rfl, hnext.mp ⟨fuel, hzs⟩⟩
  · rintro ⟨hpage, hdrop, hf⟩
    rw [← hdrop] at hf
    obtain ⟨fuel, hfuel⟩ := hnext.mpr hf
    refine ⟨fuel + 1, ?_⟩
    simp only [pages, after_doubled]
    rw [if_pos (Nat.le_of_eq hpageLen.symm), hpage, hl, Option.map_some, Option.getD_some, hfuel,
      Option.map_some, hdrop, hsplit]

/-- Paging through a list with repeated entries returns each entry above the cursor once exactly
if the pages fit. -/
theorem pages_complete_iff (cursor : ℕ) :
    (∃ fuel, pages n (doubled twice xs) fuel cursor = some (after cursor xs)) ↔
      Fits twice n (after cursor xs) := by
  -- on the number of entries that are left above the cursor
  induction hk : (after cursor xs).length using Nat.strong_induction_on generalizing cursor with
  | h k ih =>
    by_cases hlen : n ≤ (after cursor xs).length
    · obtain ⟨l, hl⟩ := exists_last hn (Nat.le_of_eq (length_take_of_le hlen).symm)
      have hmem := mem_after.mp (mem_of_mem_take (mem_of_getLast? hl))
      have hfewer : (after (l + 1) xs).length < (after cursor xs).length := by
        rw [← after_after (by omega : cursor ≤ l + 1)]
        apply length_filter_lt_length_iff_exists.mpr
        exact ⟨l, mem_after.mpr hmem, by simp⟩
      exact pages_full hn hxs hlen hl (ih _ (by omega) (l + 1) rfl)
    · exact pages_short hxs (Nat.lt_of_not_le hlen)

end

/-! ## Sorting -/

def sort (xs : List ℕ) : List ℕ := xs.insertionSort (· ≤ ·)

theorem sort_pairwise (xs : List ℕ) : (sort xs).Pairwise (· ≤ ·) :=
  pairwise_insertionSort _ xs

theorem sort_perm (xs : List ℕ) : (sort xs).Perm xs := perm_insertionSort _ xs

variable {xs : List ℕ}

@[simp] theorem mem_sort {x : ℕ} : x ∈ sort xs ↔ x ∈ xs := (sort_perm xs).mem_iff

variable {ys : List ℕ}

theorem sort_eq_of_perm (h : xs.Perm ys) (hys : ys.Pairwise (· ≤ ·)) : sort xs = ys :=
  ((sort_perm xs).trans h).eq_of_pairwise' (sort_pairwise xs) hys

theorem after_sort (cursor : ℕ) (xs : List ℕ) : after cursor (sort xs) = sort (after cursor xs) :=
  (sort_eq_of_perm ((sort_perm xs).filter _).symm (after_pairwise (sort_pairwise xs) cursor)).symm

theorem sort_strict (h : xs.Nodup) : (sort xs).Pairwise (· < ·) := by
  have hne : (sort xs).Pairwise (· ≠ ·) := (sort_perm xs).nodup_iff.mpr h
  apply ((sort_pairwise xs).and hne).imp
  intro a b hab
  exact Nat.lt_of_le_of_ne hab.1 hab.2

theorem sort_append (hx : xs.Pairwise (· ≤ ·)) (hy : ys.Pairwise (· ≤ ·)) :
    sort (xs ++ ys) = xs.merge ys := by
  apply sort_eq_of_perm (merge_perm_append _).symm
  have htrans : ∀ a b c : ℕ, decide (a ≤ b) = true → decide (b ≤ c) = true →
      decide (a ≤ c) = true := by
    simpa using fun a b c => Nat.le_trans
  have htotal : ∀ a b : ℕ, (decide (a ≤ b) || decide (b ≤ a)) = true := by
    simpa using Nat.le_total
  simpa using pairwise_merge htrans htotal xs ys (by simpa using hx) (by simpa using hy)

theorem take_merge {n k m : ℕ} (hk : n ≤ k) (hm : n ≤ m) (xs ys : List ℕ) :
    ((xs.take k).merge (ys.take m)).take n = (xs.merge ys).take n := by
  induction n generalizing k m xs ys with
  | zero => rfl
  | succ n ih =>
    cases xs with
    | nil => simp [take_take, hm]
    | cons x xs =>
      cases ys with
      | nil => simp [take_take, hk]
      | cons y ys =>
        obtain ⟨k, rfl⟩ := Nat.exists_eq_add_one_of_ne_zero (by omega : k ≠ 0)
        obtain ⟨m, rfl⟩ := Nat.exists_eq_add_one_of_ne_zero (by omega : m ≠ 0)
        have hleft := ih (by omega : n ≤ k) (by omega : n ≤ m + 1) xs (y :: ys)
        have hright := ih (by omega : n ≤ k + 1) (by omega : n ≤ m) (x :: xs) ys
        simp only [take_succ_cons] at hleft hright ⊢
        rw [cons_merge_cons, cons_merge_cons]
        split
        · rw [take_succ_cons, take_succ_cons, hleft]
        · rw [take_succ_cons, take_succ_cons, hright]

theorem take_sort_append (hx : xs.Pairwise (· ≤ ·)) (hy : ys.Pairwise (· ≤ ·))
    (n : ℕ) : (sort (xs.take n ++ ys.take n)).take n = (sort (xs ++ ys)).take n := by
  rw [sort_append hx hy, sort_append (hx.sublist (take_sublist _ _))
    (hy.sublist (take_sublist _ _)), take_merge (Nat.le_refl n) (Nat.le_refl n)]

/-- Two lists without repetitions, sorted together, are an ascending list exactly if each of its
numbers stands in just one of them. -/
theorem sort_append_eq_iff {zs : List ℕ} (hx : xs.Nodup) (hy : ys.Nodup)
    (hz : zs.Pairwise (· < ·)) (hsub : ∀ n, n ∈ xs ∨ n ∈ ys → n ∈ zs) :
    sort (xs ++ ys) = zs ↔ ∀ n ∈ zs, (n ∈ xs ↔ n ∉ ys) := by
  have hcount : ∀ n, (xs ++ ys).count n = (if n ∈ xs then 1 else 0) + if n ∈ ys then 1 else 0 := by
    intro n
    rw [count_append, Nodup.count hx, Nodup.count hy]
  constructor
  · intro heq n hn
    have hone : (xs ++ ys).count n = 1 := by
      rw [← (sort_perm _).count_eq, heq]
      exact count_eq_one_of_mem (hz.imp Nat.ne_of_lt) hn
    rw [hcount] at hone
    by_cases h1 : n ∈ xs <;> by_cases h2 : n ∈ ys <;> simp_all
  · intro hxor
    apply sort_eq_of_perm _ (hz.imp Nat.le_of_lt)
    apply perm_iff_count.mpr
    intro n
    rw [hcount, Nodup.count (hz.imp Nat.ne_of_lt)]
    by_cases hn : n ∈ zs
    · have hxn := hxor n hn
      by_cases h2 : n ∈ ys <;> simp_all
    · have hnot := fun h => hn (hsub n h)
      simp_all

end SeqPages
