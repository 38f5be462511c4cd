import Mathlib.Data.List.Basic
import Mathlib.Data.List.Induction

/-! Runs of a deterministic step function, and invariants of the runs all of whose
steps start in a state that allows them. -/

namespace GuardedRun

open List

variable {σ ε : Type*} (step : σ → ε → σ)

/-- The state after a list of events. -/
def run (s : σ) (es : List ε) : σ := es.foldl step s

@[simp] theorem run_nil (s : σ) : run step s [] = s := rfl

@[simp] theorem run_cons (s : σ) (e : ε) (es : List ε) :
    run step s (e :: es) = run step (step s e) es := rfl

theorem run_append (s : σ) (es fs : List ε) : run step s (es ++ fs) = run step (run step s es) fs :=
  foldl_append

/-- Every event of the run starts in a state where `guard` allows it. -/
def Along (guard : σ → ε → Prop) : σ → List ε → Prop
  | _, [] => True
  | s, e :: es => guard s e ∧ Along guard (step s e) es

/-- A guard that can be evaluated can be evaluated along a run. -/
instance Along.decidable {guard : σ → ε → Prop} [∀ s e, Decidable (guard s e)] :
    (s : σ) → (es : List ε) → Decidable (Along step guard s es)
  | _, [] => .isTrue trivial
  | s, e :: es =>
    have : Decidable (Along step guard (step s e) es) := Along.decidable (step s e) es
    inferInstanceAs (Decidable (guard s e ∧ Along step guard (step s e) es))

variable {step} {guard : σ → ε → Prop}

variable {s : σ} {es : List ε} {inv good : σ → Prop}

/-- An invariant kept by every guarded step holds after every guarded run. -/
theorem invariant_run (hstep : ∀ s e, inv s → guard s e → inv (step s e)) (hs : inv s)
    (ha : Along step guard s es) : inv (run step s es) := by
  induction es generalizing s with
  | nil => exact hs
  | cons e es ih => exact ih (hstep s e hs ha.1) ha.2

/-- An invariant kept by every step holds after every run. -/
theorem invariant_run_all (hstep : ∀ s e, inv s → inv (step s e)) (es : List ε) (hs : inv s) :
    inv (run step s es) := by
  induction es generalizing s with
  | nil => exact hs
  | cons e es ih => exact ih (hstep s e hs)

theorem good_of_good_run (hback : ∀ s e, good (step s e) → good s) (h : good (run step s es)) :
    good s := by
  induction es generalizing s with
  | nil => exact h
  | cons e es ih => exact hback s e (ih h)

/-- When every guarded step keeps an invariant and no other step's damage is ever repaired, a run
ends right exactly when all its steps are guarded. -/
theorem good_run_iff_along (hstep : ∀ s e, inv s → guard s e → inv (step s e))
    (hgood : ∀ s, inv s → good s) (hback : ∀ s e, good (step s e) → good s)
    (hbad : ∀ s e, inv s → ¬ guard s e → ¬ good (step s e)) (hs : inv s) :
    good (run step s es) ↔ Along step guard s es := by
  constructor
  · intro h
    induction es generalizing s with
    | nil => trivial
    | cons e es ih =>
      have hg : guard s e := by
        by_contra hg
        exact hbad s e hs hg (good_of_good_run hback h)
      exact ⟨hg, ih (hstep s e hs hg) h⟩
  · intro ha
    exact hgood _ (invariant_run hstep hs ha)

/-- A run is right at every moment exactly when it starts right and every step ends right. -/
theorem good_always_iff_along :
    (∀ fs, fs <+: es → good (run step s fs)) ↔
      good s ∧ Along step (fun s e => good (step s e)) s es := by
  induction es generalizing s with
  | nil => simp [Along]
  | cons e es ih =>
    constructor
    · intro h
      have htail : ∀ fs, fs <+: es → good (run step (step s e) fs) :=
        fun fs hfs => h (e :: fs) (cons_prefix_cons.mpr ⟨rfl, hfs⟩)
      exact ⟨h [] nil_prefix, ih.mp htail⟩
    · rintro ⟨hs, he, htail⟩ fs hfs
      cases fs with
      | nil => exact hs
      | cons f fs =>
        obtain ⟨rfl, hrest⟩ := cons_prefix_cons.mp hfs
        exact ih.mpr ⟨he, htail⟩ fs hrest

variable {cond : List ε → ε → Prop}

/-- What holds of the events so far at every moment is decided event by event: by what each one
adds to those before it. -/
theorem good_prefixes_iff {good : List ε → Prop} (hnil : good [])
    (hstep : ∀ before e, good before → (good (before ++ [e]) ↔ cond before e)) :
    (∀ before, before <+: es → good before) ↔
      ∀ before e, before ++ [e] <+: es → cond before e := by
  constructor
  · intro h before e hbefore
    have hgood : good before := h before ((prefix_append before [e]).trans hbefore)
    exact (hstep before e hgood).mp (h _ hbefore)
  · intro h before hbefore
    induction before using reverseRecOn with
    | nil => exact hnil
    | append_singleton before e ih =>
      have hgood : good before := ih ((prefix_append before [e]).trans hbefore)
      exact (hstep before e hgood).mpr (h before e hbefore)

theorem forall_prefix_concat_iff {R : σ → σ → Prop} (hrefl : ∀ s, R s s)
    (htrans : ∀ a b c, R a b → R b c → R a c) {before : List ε} {e : ε}
    (hbefore : ∀ earlier, earlier <+: before → R (run step s earlier) (run step s before)) :
    (∀ earlier, earlier <+: before ++ [e] →
        R (run step s earlier) (run step s (before ++ [e]))) ↔
      R (run step s before) (run step s (before ++ [e])) := by
  constructor
  · intro h
    exact h before (prefix_append before [e])
  · intro h earlier hearlier
    rcases prefix_concat_iff.mp hearlier with rfl | hearlier
    · exact hrefl _
    · exact htrans _ _ _ (hbefore earlier hearlier) h

theorem forall_concat_prefix_iff :
    (∀ before e, before ++ [e] <+: es → cond before e) ↔
      ∀ i : Fin es.length, cond (es.take i) (es.get i) := by
  constructor
  · intro h i
    refine h _ _ ?_
    rw [get_eq_getElem, take_append_getElem]
    exact take_prefix _ _
  · intro h before e hbefore
    obtain ⟨later, rfl⟩ := hbefore
    have hi : before.length < (before ++ [e] ++ later).length := by simp
    have hcond := h ⟨before.length, hi⟩
    simpa [append_assoc] using hcond

theorem latch_run_iff {p : σ → Prop} {sets clears : σ → ε → Prop}
    (hkeep : ∀ s e, inv s → inv (step s e))
    (hstep : ∀ s e, inv s → (p (step s e) ↔ sets s e ∨ (p s ∧ ¬ clears s e))) (hs : inv s) :
    p (run step s es) ↔
      (p s ∧ Along step (fun s e => ¬ clears s e) s es) ∨
      ∃ before e later, es = before ++ e :: later ∧ sets (run step s before) e ∧
        Along step (fun s e => ¬ clears s e) (run step s (before ++ [e])) later := by
  induction es generalizing s with
  | nil => simp [Along]
  | cons e es ih =>
    rw [run_cons, ih (hkeep s e hs), hstep s e hs]
    constructor
    · rintro (⟨hset | ⟨hp, hkeep⟩, hlater⟩ | ⟨before, f, later, rfl, hset, hlater⟩)
      · exact .inr ⟨[], e, es, rfl, hset, hlater⟩
      · exact .inl ⟨hp, hkeep, hlater⟩
      · exact .inr ⟨e :: before, f, later, rfl, hset, hlater⟩
    · rintro (⟨hp, hkeep, hlater⟩ | ⟨before, f, later, heq, hset, hlater⟩)
      · exact .inl ⟨.inr ⟨hp, hkeep⟩, hlater⟩
      · cases before with
        | nil =>
          obtain ⟨rfl, rfl⟩ := cons.inj heq
          exact .inl ⟨.inl hset, hlater⟩
        | cons b before =>
          obtain ⟨rfl, rfl⟩ := cons.inj heq
          exact .inr ⟨before, f, later, rfl, hset, hlater⟩

theorem along_of_forall (h : ∀ s e, guard s e) (s : σ) (es : List ε) : Along step guard s es := by
  induction es generalizing s with
  | nil => trivial
  | cons e es ih => exact ⟨h s e, ih (step s e)⟩

/-- Two guards that agree under an invariant allow the same runs. -/
theorem along_congr {guard' : σ → ε → Prop} (hiff : ∀ s e, inv s → (guard s e ↔ guard' s e))
    (hstep : ∀ s e, inv s → guard s e → inv (step s e)) (hs : inv s) :
    Along step guard s es ↔ Along step guard' s es := by
  induction es generalizing s with
  | nil => exact Iff.rfl
  | cons e es ih =>
    constructor
    · rintro ⟨he, htail⟩
      exact ⟨(hiff s e hs).mp he, (ih (hstep s e hs he)).mp htail⟩
    · rintro ⟨he, htail⟩
      have hg := (hiff s e hs).mpr he
      exact ⟨hg, (ih (hstep s e hs hg)).mpr htail⟩

end GuardedRun
