import Mathlib.Data.List.Nodup
import Mathlib.Order.Lattice

/-! A filter that keeps the highest number seen in each stream and lets only higher ones pass. -/

namespace HighWater

open List

variable {τ β : Type*} [DecidableEq τ] [LinearOrder β]

/-- The number is above the mark of its stream. -/
def passes (marks : τ → Option β) (k : τ × β) : Bool := (marks k.1).all (· < k.2)

/-- The marks after one number. -/
def mark (marks : τ → Option β) (k : τ × β) : τ → Option β :=
  if passes marks k then Function.update marks k.1 (some k.2) else marks

/-- The numbers that pass. -/
def passed : (τ → Option β) → List (τ × β) → List (τ × β)
  | _, [] => []
  | marks, k :: ks =>
    if passes marks k then k :: passed (mark marks k) ks else passed (mark marks k) ks

/-- Every number of the same stream is lower. -/
def Above (ks : List (τ × β)) (k : τ × β) : Prop := ∀ k' ∈ ks, k'.1 = k.1 → k'.2 < k.2

variable {marks : τ → Option β} {k : τ × β} {ks : List (τ × β)}

omit [DecidableEq τ] in
theorem passes_iff : passes marks k = true ↔ ∀ m, marks k.1 = some m → m < k.2 := by
  unfold passes
  cases marks k.1 <;> simp

theorem passes_mark {a : τ × β} :
    passes (mark marks a) k = true ↔
      passes marks k = true ∧ (a.1 = k.1 → a.2 < k.2) := by
  by_cases hstream : a.1 = k.1
  · by_cases ha : passes marks a = true
    · have hmark : mark marks a k.1 = some a.2 := by simp [mark, ha, hstream]
      rw [passes_iff, hmark]
      constructor
      · intro h
        have hlt := h a.2 rfl
        refine ⟨passes_iff.mpr ?_, fun _ => hlt⟩
        intro m hm
        exact (passes_iff.mp ha m (hstream ▸ hm)).trans hlt
      · intro h m hm
        obtain rfl := Option.some.inj hm
        exact h.2 hstream
    · have hmark : mark marks a = marks := by simp [mark, ha]
      rw [hmark]
      refine ⟨fun h => ⟨h, fun _ => ?_⟩, And.left⟩
      rw [passes_iff] at ha h
      simp only [not_forall, not_lt] at ha
      obtain ⟨m, hm, hle⟩ := ha
      exact hle.trans_lt (h m (hstream ▸ hm))
  · have hmark : mark marks a k.1 = marks k.1 := by
      unfold mark
      split
      · simp [Ne.symm hstream]
      · rfl
    rw [passes_iff, hmark, ← passes_iff]
    simp [hstream]

omit [DecidableEq τ] in
theorem exists_above_cons_iff {a : τ × β} :
    (∃ pre post, a :: ks = pre ++ k :: post ∧ Above pre k) ↔
      k = a ∨
        (a.1 = k.1 → a.2 < k.2) ∧ ∃ pre post, ks = pre ++ k :: post ∧ Above pre k := by
  constructor
  · intro ⟨pre, post, heq, habove⟩
    cases pre with
    | nil => exact .inl (cons.inj heq).1.symm
    | cons b pre =>
      obtain ⟨rfl, htail⟩ := cons.inj heq
      obtain ⟨ha, hpre⟩ := forall_mem_cons.mp habove
      exact .inr ⟨ha, pre, post, htail, hpre⟩
  · intro h
    rcases h with rfl | ⟨ha, pre, post, rfl, habove⟩
    · exact ⟨[], ks, rfl, nofun⟩
    · exact ⟨a :: pre, post, rfl, forall_mem_cons.mpr ⟨ha, habove⟩⟩

theorem mem_passed_iff :
    k ∈ passed marks ks ↔
      passes marks k = true ∧ ∃ pre post, ks = pre ++ k :: post ∧ Above pre k := by
  induction ks generalizing marks with
  | nil => simp [passed]
  | cons a ks ih =>
    rw [exists_above_cons_iff, and_or_left, ← and_assoc, ← passes_mark, ← ih, passed]
    by_cases ha : passes marks a = true
    · rw [if_pos ha, mem_cons]
      exact or_congr_left ⟨fun h => ⟨h ▸ ha, h⟩, And.right⟩
    · have hno : ¬ (passes marks k = true ∧ k = a) := fun h => ha (h.2 ▸ h.1)
      rw [if_neg ha, or_iff_right hno]

omit [DecidableEq τ] in
theorem Above.not_mem (h : Above ks k) : k ∉ ks := by
  intro hmem
  exact lt_irrefl _ (h k hmem rfl)

omit [DecidableEq τ] [LinearOrder β] in
theorem eq_of_first {pre pre' post post' : List (τ × β)} (h : pre ++ k :: post = pre' ++ k :: post')
    (hpre : k ∉ pre) (hpre' : k ∉ pre') : pre = pre' := by
  induction pre generalizing pre' with
  | nil =>
    cases pre' with
    | nil => rfl
    | cons b pre' =>
      obtain rfl : k = b := (cons.inj h).1
      exact absurd mem_cons_self hpre'
  | cons a pre ih =>
    cases pre' with
    | nil =>
      obtain rfl : a = k := (cons.inj h).1
      exact absurd mem_cons_self hpre
    | cons b pre' =>
      obtain ⟨rfl, hrest⟩ := cons.inj h
      rw [ih hrest (fun hmem => hpre (mem_cons_of_mem _ hmem))
        (fun hmem => hpre' (mem_cons_of_mem _ hmem))]

/-- Without marks, a number passes exactly when it is above all that came before it where it
comes first. -/
theorem mem_passed_first {pre post : List (τ × β)} (hks : ks = pre ++ k :: post)
    (hfirst : k ∉ pre) : k ∈ passed (fun _ => none) ks ↔ Above pre k := by
  rw [mem_passed_iff]
  constructor
  · intro ⟨_, pre', post', heq, habove⟩
    rw [eq_of_first (hks.symm.trans heq) hfirst habove.not_mem]
    exact habove
  · intro habove
    exact ⟨rfl, pre, post, hks, habove⟩

theorem nodup_passed (marks : τ → Option β) (ks : List (τ × β)) : (passed marks ks).Nodup := by
  induction ks generalizing marks with
  | nil => exact nodup_nil
  | cons a ks ih =>
    rw [passed]
    split
    · refine nodup_cons.mpr ⟨?_, ih _⟩
      intro hmem
      have hagain := (mem_passed_iff.mp hmem).1
      exact lt_irrefl _ ((passes_mark.mp hagain).2 rfl)
    · exact ih _

theorem count_passed_eq_one_iff [BEq (τ × β)] [LawfulBEq (τ × β)] :
    (passed marks ks).count k = 1 ↔ k ∈ passed marks ks := by
  constructor
  · intro h
    exact count_pos_iff.mp (by omega)
  · exact count_eq_one_of_mem (nodup_passed marks ks)

end HighWater
