import NonokaIM.Model.SeqGenerator
import Mathlib.Data.List.Nodup
import Mathlib.Algebra.Group.Int.Defs

/-! # Message ids of several processes

All are node 1, so that only clocks and steps tell ids apart. -/

namespace NonokaIM

variable {ι : Type}

/-- The library composes its ids injectively from the millisecond, a node number of ten bits
and a step of twelve bits. -/
def ComposesInjectively (compose : ℕ → Int → ℕ → Int) : Prop :=
  ∀ ms ms' node node' step step', 0 ≤ node → node < 1024 → 0 ≤ node' → node' < 1024 →
    step < 4096 → step' < 4096 → compose ms node step = compose ms' node' step' →
    ms = ms' ∧ node = node' ∧ step = step'

def packID (millisecond : ℕ) (node : Int) (step : ℕ) : Int :=
  millisecond * 2 ^ 22 + node * 2 ^ 12 + step

theorem packID_composesInjectively : ComposesInjectively packID := by
  intro ms ms' node node' step step' hn hn' hm hm' hs hs' h
  simp only [packID] at h
  omega

theorem newSnowflake_mem (nodeID : Int) : 0 ≤ newSnowflake nodeID ∧ newSnowflake nodeID < 1024 := by
  simp only [newSnowflake]
  split <;> split <;> omega

theorem nextID_eq_iff {compose : ℕ → Int → ℕ → Int} (hc : ComposesInjectively compose)
    {d d' : Draw ι} (hd : d.step < 4096) (hd' : d'.step < 4096) :
    nextID compose d = nextID compose d' ↔ d.millisecond = d'.millisecond ∧ d.step = d'.step := by
  obtain ⟨hlo, hhi⟩ := newSnowflake_mem 1
  constructor
  · intro h
    obtain ⟨hms, _, hstep⟩ := hc _ _ _ _ _ _ hlo hhi hlo hhi hd hd' h
    exact ⟨hms, hstep⟩
  · rintro ⟨hms, hstep⟩
    rw [nextID, nextID, hms, hstep]

/-- No id is drawn twice exactly when no two processes reach the same millisecond and step. -/
theorem msgIDs_nodup_iff (compose : ℕ → Int → ℕ → Int) (hc : ComposesInjectively compose)
    (draws : List (Draw ι)) (hstep : ∀ d ∈ draws, d.step < 4096) (hnode : draws.Nodup) :
    (draws.map (nextID compose)).Nodup ↔
      ∀ d ∈ draws, ∀ d' ∈ draws, d.process ≠ d'.process →
        ¬ (d.millisecond = d'.millisecond ∧ d.step = d'.step) := by
  rw [List.nodup_map_iff_inj_on hnode]
  constructor
  · intro hinj d hd d' hd' hp hsame
    have heq := hinj d hd d' hd' ((nextID_eq_iff hc (hstep d hd) (hstep d' hd')).mpr hsame)
    exact hp (congrArg Draw.process heq)
  · intro hdiff d hd d' hd' hid
    obtain ⟨hms, hst⟩ := (nextID_eq_iff hc (hstep d hd) (hstep d' hd')).mp hid
    have hp : d.process = d'.process := by
      by_contra hp
      exact hdiff d hd d' hd' hp ⟨hms, hst⟩
    cases d
    cases d'
    simp_all

/-- Two processes at different steps of one millisecond. -/
theorem msgIDs_nodup_two_processes :
    ([⟨false, 7, 0⟩, ⟨true, 7, 1⟩, ⟨true, 8, 0⟩].map (nextID (ι := Bool) packID)).Nodup := by
  refine (msgIDs_nodup_iff packID packID_composesInjectively _ ?_ ?_).mpr ?_
  · decide
  · decide
  · decide

/-- Two processes draw their first id in the same millisecond. -/
theorem msgID_drawn_twice :
    ComposesInjectively packID ∧
    ([⟨false, 7, 0⟩, ⟨true, 7, 0⟩] : List (Draw Bool)).Nodup ∧
    ¬ (([⟨false, 7, 0⟩, ⟨true, 7, 0⟩] : List (Draw Bool)).map (nextID packID)).Nodup := by
  refine ⟨packID_composesInjectively, ?_, ?_⟩
  · decide
  · decide

end NonokaIM
