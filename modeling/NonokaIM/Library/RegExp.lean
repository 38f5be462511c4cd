import Mathlib.Data.List.TakeWhile

/-! Regular expressions with at most one group, as JavaScript matches them: alternatives in order,
greedy repetition, and global matches one behind the other. -/

namespace RegExp

open List

variable {α : Type*}

inductive Regex (α : Type*) where
  /-- The start of the text. -/
  | start
  | one (p : α → Bool)
  /-- As many units as possible, but at least one. -/
  | plus (p : α → Bool)
  | seq (r s : Regex α)
  | alt (r s : Regex α)
  | group (r : Regex α)

/-- Where a match is, and where its group is. -/
structure Match where
  index : ℕ
  stop : ℕ
  capture : Option (ℕ × ℕ)

/-- `slice` of a string. -/
def slice (text : List α) (first last : ℕ) : List α := (text.take last).drop first

/-- The number of units from a position on that satisfy a predicate. -/
def runLength (p : α → Bool) (text : List α) (pos : ℕ) : ℕ := ((text.drop pos).takeWhile p).length

/-- The ends of the matches from a position on with their groups, in the order in which they are
tried. -/
def reaches (text : List α) : Regex α → ℕ → List (ℕ × Option (ℕ × ℕ))
  | .start, pos => if pos = 0 then [(pos, none)] else []
  | .one p, pos => if text[pos]?.any p then [(pos + 1, none)] else []
  | .plus p, pos =>
    (range' (pos + 1) (runLength p text pos)).reverse.map fun stop => (stop, none)
  | .seq r s, pos =>
    (reaches text r pos).flatMap fun a =>
      (reaches text s a.1).map fun b => (b.1, b.2 <|> a.2)
  | .alt r s, pos => reaches text r pos ++ reaches text s pos
  | .group r, pos => (reaches text r pos).map fun a => (a.1, some (pos, a.1))

def matchAt (r : Regex α) (text : List α) (pos : ℕ) : Option Match :=
  (reaches text r pos).head?.map fun a => ⟨pos, a.1, a.2⟩

/-- `exec` with a last index: the first position with a match. -/
def exec (r : Regex α) (text : List α) (lastIndex : ℕ) : Option Match :=
  (range' lastIndex (text.length + 1 - lastIndex)).findSome? (matchAt r text)

/-- The matches of a loop over `exec`, at most `fuel` of them. -/
def matchesFrom (r : Regex α) (text : List α) : (fuel lastIndex : ℕ) → List Match
  | 0, _ => []
  | fuel + 1, lastIndex =>
    match exec r text lastIndex with
    | none => []
    | some m => m :: matchesFrom r text fuel m.stop

/-- All matches of a global expression. -/
def allMatches (r : Regex α) (text : List α) : List Match :=
  matchesFrom r text (text.length + 1) 0

theorem slice_of_le {text : List α} {first last : ℕ} (h : last ≤ first) :
    slice text first last = [] := by
  rw [slice, drop_eq_nil_of_le]
  exact (length_take_le _ _).trans h

theorem slice_append_drop {text : List α} {first last : ℕ} (h : first ≤ last) :
    slice text first last ++ text.drop last = text.drop first := by
  have hdrop : text.drop last = (text.drop first).drop (last - first) := by
    rw [drop_drop, Nat.add_sub_cancel' h]
  rw [slice, drop_take, hdrop, take_append_drop]

section

variable {p : α → Bool} {text : List α} {pos : ℕ}

theorem runLength_of_not (h : ¬ text[pos]?.any p = true) : runLength p text pos = 0 := by
  unfold runLength
  cases hx : text[pos]? with
  | none => rw [drop_eq_nil_of_le (getElem?_eq_none_iff.mp hx)]; rfl
  | some x =>
    obtain ⟨hlt, rfl⟩ := List.getElem?_eq_some_iff.mp hx
    rw [drop_eq_getElem_cons hlt, takeWhile_cons_of_neg (by simpa [hx] using h)]
    rfl

theorem runLength_le : pos ≤ text.length → pos + runLength p text pos ≤ text.length := by
  intro hpos
  have hstart := takeWhile_prefix (l := text.drop pos) p
  have hle := hstart.length_le
  rw [length_drop] at hle
  unfold runLength
  omega

theorem any_of_lt_runLength {i : ℕ} (hi : i < runLength p text pos) :
    text[pos + i]?.any p = true := by
  obtain ⟨rest, hrest⟩ := takeWhile_prefix (l := text.drop pos) p
  have hget : (text.drop pos)[i]? = some (((text.drop pos).takeWhile p)[i]) := by
    rw [← getElem?_eq_getElem hi, ← getElem?_append_left hi, hrest]
  rw [getElem?_drop] at hget
  rw [hget, Option.any_some]
  exact mem_takeWhile_imp (getElem_mem hi)

end

section

variable {r : Regex α} {text : List α}

theorem index_of_matchAt {pos : ℕ} {m : Match} (h : matchAt r text pos = some m) :
    m.index = pos := by
  obtain ⟨a, -, rfl⟩ := Option.map_eq_some_iff.mp h
  rfl

/-- The expression matches no empty text, and only within the text. -/
def Advances (r : Regex α) (text : List α) : Prop :=
  ∀ pos m, matchAt r text pos = some m → pos < m.stop ∧ m.stop ≤ text.length

/-- No match starts inside another one. -/
def Separate (r : Regex α) (text : List α) : Prop :=
  ∀ pos m, matchAt r text pos = some m → ∀ j, pos < j → j < m.stop → matchAt r text j = none

theorem filterMap_skip {β : Type*} {f : ℕ → Option β} {i k n : ℕ} (hik : i ≤ k) (hkn : k ≤ n)
    (hnone : ∀ j, i ≤ j → j < k → f j = none) :
    (range' i (n - i)).filterMap f = (range' k (n - k)).filterMap f := by
  have hsplit : range' i (n - i) = range' i (k - i) ++ range' k (n - k) := by
    have happend := range'_append_1 (s := i) (m := k - i) (n := n - k)
    rw [show i + (k - i) = k by omega, show k - i + (n - k) = n - i by omega] at happend
    exact happend.symm
  have hnil : (range' i (k - i)).filterMap f = [] := by
    rw [filterMap_eq_nil_iff]
    intro j hj
    rw [mem_range'_1] at hj
    exact hnone j hj.1 (by omega)
  rw [hsplit, filterMap_append, hnil, nil_append]

/-- With enough fuel the loop finds the matches of all positions. -/
theorem matchesFrom_eq (hadvances : Advances r text) (hseparate : Separate r text) (fuel i : ℕ)
    (hi : i ≤ text.length + 1) (hfuel : text.length + 1 - i ≤ fuel) :
    matchesFrom r text fuel i =
      (range' i (text.length + 1 - i)).filterMap (matchAt r text) := by
  induction fuel generalizing i with
  | zero =>
    rw [Nat.le_zero.mp hfuel]
    rfl
  | succ fuel ih =>
    rw [matchesFrom]
    cases hexec : exec r text i with
    | none =>
      refine (filterMap_eq_nil_iff.mpr ?_).symm
      exact findSome?_eq_none_iff.mp hexec
    | some m =>
      obtain ⟨before, k, behind, hrange, hk, hbefore⟩ := findSome?_eq_some_iff.mp hexec
      have hmem : k ∈ range' i (text.length + 1 - i) := by
        rw [hrange]
        simp
      have hik : i ≤ k ∧ k < text.length + 1 := by
        rw [mem_range'_1] at hmem
        omega
      obtain ⟨hstop, hend⟩ := hadvances k m hk
      have hnone : ∀ j, i ≤ j → j < k → matchAt r text j = none := by
        intro j hij hjk
        refine hbefore j ?_
        obtain ⟨n, hn, rfl, hrest⟩ := range'_eq_append_iff.mp hrange
        obtain ⟨hhead, -, -⟩ := range'_eq_cons_iff.mp hrest.symm
        rw [mem_range'_1]
        omega
      rw [filterMap_skip hik.1 hik.2.le hnone,
        show text.length + 1 - k = text.length + 1 - (k + 1) + 1 by omega, range'_succ,
        filterMap_cons_some hk, filterMap_skip (by omega : k + 1 ≤ m.stop) (by omega)
          fun j hj hlt => hseparate k m hk j hj hlt]
      exact congrArg (m :: ·) (ih m.stop (by omega) (by omega))

theorem allMatches_eq (hadvances : Advances r text) (hseparate : Separate r text) :
    allMatches r text = (range (text.length + 1)).filterMap (matchAt r text) := by
  rw [range_eq_range']
  exact matchesFrom_eq hadvances hseparate _ 0 (Nat.zero_le _) (Nat.le_refl _)

/-- The matches lie one behind the other, from a position on. -/
def Spread (length : ℕ) : ℕ → List Match → Prop
  | _, [] => True
  | i, m :: ms => i ≤ m.index ∧ m.index ≤ m.stop ∧ m.stop ≤ length ∧ Spread length m.stop ms

theorem spread_matchesFrom (hadvances : Advances r text) (fuel i : ℕ) :
    Spread text.length i (matchesFrom r text fuel i) := by
  induction fuel generalizing i with
  | zero => trivial
  | succ fuel ih =>
    rw [matchesFrom]
    cases hexec : exec r text i with
    | none => trivial
    | some m =>
      obtain ⟨before, k, behind, hrange, hk, -⟩ := findSome?_eq_some_iff.mp hexec
      have hmem : k ∈ range' i (text.length + 1 - i) := by
        rw [hrange]
        simp
      obtain ⟨hstop, hend⟩ := hadvances k m hk
      rw [← index_of_matchAt hk] at hmem hstop
      exact ⟨(mem_range'_1.mp hmem).1, hstop.le, hend, ih m.stop⟩

theorem spread_allMatches (hadvances : Advances r text) :
    Spread text.length 0 (allMatches r text) :=
  spread_matchesFrom hadvances _ 0

end

end RegExp
