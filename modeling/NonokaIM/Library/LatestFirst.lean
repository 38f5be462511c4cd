import Mathlib.Data.List.Sort

/-! Paging backward through a strictly descending list, from the last entry of each page. -/

namespace LatestFirst

open List

variable {α : Type*} [LinearOrder α]

/-- The entries below a cursor; without a cursor, all of them. -/
def below (cursor : Option α) (xs : List α) : List α := xs.filter fun x => cursor.all (x < ·)

/-- All pages from a cursor on; a page that leaves nothing behind is the last one. -/
def pages (n : ℕ) (xs : List α) : ℕ → Option α → Option (List (List α))
  | 0, _ => none
  | fuel + 1, cursor =>
    let page := (below cursor xs).take n
    if n < (below cursor xs).length then
      (pages n xs fuel page.getLast?).map (page :: ·)
    else some [page]

variable {xs zs : List α} {n : ℕ} {x : α} {cursor : Option α}

theorem mem_take_iff (h : xs.Pairwise (· > ·)) :
    x ∈ xs.take n ↔ x ∈ xs ∧ (xs.filter (x < ·)).length < n := by
  induction xs generalizing n with
  | nil => simp
  | cons y ys ih =>
    obtain ⟨hhead, htail⟩ := pairwise_cons.mp h
    have hnone : ys.filter (y < ·) = [] := by
      apply filter_eq_nil_iff.mpr
      intro z hz
      simpa using (hhead z hz).le
    cases n with
    | zero => simp
    | succ n =>
      rw [take_succ_cons, mem_cons, mem_cons, ih htail]
      by_cases hxy : x = y
      · subst hxy
        simp [hnone]
      · by_cases hx : x ∈ ys
        · simp [hxy, hx, hhead x hx]
        · simp [hxy, hx]

theorem take_eq_of_covers (hx : xs.Pairwise (· > ·)) (hz : zs.Pairwise (· > ·))
    (hsub : ∀ x ∈ xs, x ∈ zs) (hcov : ∀ z ∈ zs.take n, z ∈ xs) : xs.take n = zs.take n := by
  induction zs generalizing xs n with
  | nil =>
    have hnil : xs = [] := eq_nil_iff_forall_not_mem.mpr fun x hx => by simpa using hsub x hx
    rw [hnil]
  | cons z zs ih =>
    cases n with
    | zero => rfl
    | succ n =>
      obtain ⟨hzhead, hztail⟩ := pairwise_cons.mp hz
      have hmem : z ∈ xs := hcov z (by simp)
      cases xs with
      | nil => simp at hmem
      | cons x xs =>
        obtain ⟨hxhead, hxtail⟩ := pairwise_cons.mp hx
        -- both lists start with their largest entry
        have heq : x = z := by
          rcases mem_cons.mp hmem with he | hlow
          · exact he.symm
          · rcases mem_cons.mp (hsub x (by simp)) with he | hlow'
            · exact he
            · exact absurd (hxhead z hlow) (not_lt_of_gt (hzhead x hlow'))
        subst heq
        rw [take_succ_cons, take_succ_cons]
        congr 1
        apply ih hxtail hztail
        · intro y hy
          rcases mem_cons.mp (hsub y (mem_cons_of_mem _ hy)) with he | hy'
          · exact absurd (hxhead y hy) (he ▸ lt_irrefl x)
          · exact hy'
        · intro y hy
          have hlt := hzhead y (mem_of_mem_take hy)
          rcases mem_cons.mp (hcov y (by simp [hy])) with he | hy'
          · exact absurd hlt (he ▸ lt_irrefl x)
          · exact hy'

theorem mem_take_of_part (hx : xs.Pairwise (· > ·)) (hz : zs.Pairwise (· > ·))
    (hsub : ∀ x ∈ xs, x ∈ zs) (hmem : x ∈ xs) (h : x ∈ zs.take n) : x ∈ xs.take n := by
  apply (mem_take_iff hx).mpr
  refine ⟨hmem, ?_⟩
  have hnodup : (xs.filter (x < ·)).Nodup := (hx.imp ne_of_gt).filter _
  have hpart : xs.filter (x < ·) ⊆ zs.filter (x < ·) := by
    intro y hy
    simp only [mem_filter] at hy ⊢
    exact ⟨hsub y hy.1, hy.2⟩
  have hle := (subperm_of_subset hnodup hpart).length_le
  have hlt := ((mem_take_iff hz).mp h).2
  omega

/-- Cutting two lists to `n` entries before uniting them does not change the first `n`. -/
theorem take_union {ys ms : List α} (hx : xs.Pairwise (· > ·)) (hy : ys.Pairwise (· > ·))
    (hm : ms.Pairwise (· > ·)) (hz : zs.Pairwise (· > ·)) (hunion : ∀ z, z ∈ zs ↔ z ∈ xs ∨ z ∈ ys)
    (hcut : ∀ z, z ∈ ms ↔ z ∈ xs.take n ∨ z ∈ ys.take n) : ms.take n = zs.take n := by
  apply take_eq_of_covers hm hz
  · intro z hmem
    rcases (hcut z).mp hmem with h | h
    · exact (hunion z).mpr (.inl (mem_of_mem_take h))
    · exact (hunion z).mpr (.inr (mem_of_mem_take h))
  · intro z hmem
    apply (hcut z).mpr
    rcases (hunion z).mp (mem_of_mem_take hmem) with h | h
    · exact .inl (mem_take_of_part hx hz (fun x hx => (hunion x).mpr (.inl hx)) h hmem)
    · exact .inr (mem_take_of_part hy hz (fun y hy => (hunion y).mpr (.inr hy)) h hmem)

/-- Something is left behind the first `n` entries exactly if an entry is below all of them. -/
theorem length_gt_iff (h : xs.Pairwise (· > ·)) :
    n < xs.length ↔ ∃ x ∈ xs, ∀ y ∈ xs.take n, x < y := by
  constructor
  · intro hlt
    have hsplit := take_append_drop n xs
    rw [← hsplit] at h
    have hne : xs.drop n ≠ [] := by
      apply ne_nil_of_length_pos
      rw [length_drop]
      omega
    refine ⟨(xs.drop n).head hne, mem_of_mem_drop (head_mem hne), ?_⟩
    intro y hy
    exact (pairwise_append.mp h).2.2 y hy _ (head_mem hne)
  · intro hx
    obtain ⟨x, hmem, hlow⟩ := hx
    by_contra hle
    rw [take_of_length_le (by omega)] at hlow
    exact lt_irrefl x (hlow x hmem)

theorem mem_below : x ∈ below cursor xs ↔ x ∈ xs ∧ ∀ c ∈ cursor, x < c := by
  cases cursor <;> simp [below]

theorem below_pairwise (h : xs.Pairwise (· > ·)) (cursor : Option α) :
    (below cursor xs).Pairwise (· > ·) :=
  h.filter _

theorem below_getLast {ps rs : List α} (h : (ps ++ rs).Pairwise (· > ·)) {l : α}
    (hl : ps.getLast? = some l) : below (some l) (ps ++ rs) = rs := by
  obtain ⟨hps, hrs, hcross⟩ := pairwise_append.mp h
  have hmem : l ∈ ps := mem_of_getLast? hl
  have hfront : below (some l) ps = [] := by
    apply eq_nil_iff_forall_not_mem.mpr
    intro x hx
    obtain ⟨hxs, hlt⟩ := mem_below.mp hx
    obtain ⟨qs, rfl⟩ := getLast?_eq_some_iff.mp hl
    rcases mem_append.mp hxs with hq | hq
    · have hgt := (pairwise_append.mp hps).2.2 x hq l (by simp)
      exact absurd (hlt l rfl) (not_lt_of_gt hgt)
    · rw [mem_singleton.mp hq] at hlt
      exact absurd (hlt l rfl) (lt_irrefl l)
  have hback : below (some l) rs = rs := by
    apply filter_eq_self.mpr
    intro x hx
    simpa using hcross l hmem x hx
  rw [below] at hfront hback
  rw [below, filter_append, hfront, hback, nil_append]

theorem below_below {l : α} (hl : l ∈ below cursor xs) :
    below (some l) (below cursor xs) = below (some l) xs := by
  have hlt := (mem_below.mp hl).2
  rw [below, below, below, filter_filter]
  apply filter_congr
  intro x _
  cases cursor with
  | none => simp
  | some c =>
    have hlc : l < c := hlt c rfl
    simp only [Option.all_some, Bool.and_eq_left_iff_imp, decide_eq_true_eq]
    intro hxl
    exact hxl.trans hlc

def sortDown (xs : List α) : List α := xs.insertionSort (· ≥ ·)

theorem sortDown_perm (xs : List α) : (sortDown xs).Perm xs := perm_insertionSort _ xs

@[simp] theorem mem_sortDown : x ∈ sortDown xs ↔ x ∈ xs :=
  (sortDown_perm xs).mem_iff

theorem sortDown_strict (h : xs.Nodup) : (sortDown xs).Pairwise (· > ·) := by
  have hne : (sortDown xs).Pairwise (· ≠ ·) := (sortDown_perm xs).nodup_iff.mpr h
  have hle : (sortDown xs).Pairwise (· ≥ ·) := pairwise_insertionSort _ xs
  apply (hle.and hne).imp
  intro a b hab
  exact lt_of_le_of_ne hab.1 hab.2.symm

theorem sortDown_below (h : xs.Nodup) (cursor : Option α) :
    sortDown (below cursor xs) = below cursor (sortDown xs) := by
  have hstrict : (sortDown (below cursor xs)).Pairwise (· > ·) := sortDown_strict (h.filter _)
  apply hstrict.eq_of_mem_iff (below_pairwise (sortDown_strict h) cursor)
  intro x
  rw [mem_sortDown, mem_below, mem_below, mem_sortDown]

/-- Enough pages hold everything below the cursor, in order. -/
theorem pages_flatten (hn : 0 < n) (h : xs.Pairwise (· > ·)) {fuel : ℕ}
    (hfuel : (below cursor xs).length < fuel) :
    ∃ ps, pages n xs fuel cursor = some ps ∧ ps.flatten = below cursor xs := by
  -- every page but the last takes `n` entries off the list below the cursor
  induction fuel generalizing cursor with
  | zero => omega
  | succ fuel ih =>
    by_cases hmore : n < (below cursor xs).length
    · have hne : (below cursor xs).take n ≠ [] := by
        apply ne_nil_of_length_pos
        rw [length_take]
        omega
      have hlast := getLast?_eq_some_getLast hne
      have hsplit : (below cursor xs).take n ++ (below cursor xs).drop n = below cursor xs :=
        take_append_drop n _
      have hrest : below (some (((below cursor xs).take n).getLast hne)) xs =
          (below cursor xs).drop n := by
        have hmem : ((below cursor xs).take n).getLast hne ∈ below cursor xs :=
          mem_of_mem_take (getLast_mem hne)
        have hpair := below_pairwise h cursor
        rw [← hsplit] at hpair
        have hbelow := below_getLast hpair hlast
        rw [hsplit, below_below hmem] at hbelow
        exact hbelow
      have hfuel : (below ((below cursor xs).take n).getLast? xs).length < fuel := by
        rw [hlast, hrest, length_drop]
        omega
      obtain ⟨ps, hps, hflat⟩ := ih hfuel
      refine ⟨(below cursor xs).take n :: ps, ?_, ?_⟩
      · simp only [pages, if_pos hmore, hps, Option.map_some]
      · rw [flatten_cons, hflat, hlast, hrest, hsplit]
    · refine ⟨[(below cursor xs).take n], ?_, ?_⟩
      · simp only [pages, if_neg hmore]
      · rw [flatten_singleton, take_of_length_le (by omega)]

end LatestFirst
