import Mathlib.Data.List.Forall2

/-! Rows with a flag that is set once, and a stamp that says when: the first mark counts. -/

namespace StampOnce

open List

/-- A flag, and how it is set at a moment. -/
structure Flag (τ ρ : Type*) where
  isSet : ρ → Bool
  set : τ → ρ → ρ
  isSet_set : ∀ t r, isSet (set t r) = true

namespace Flag

variable {τ ρ : Type*} (f : Flag τ ρ)

/-- A row is left alone, or has got its flag. -/
def Kept (r r' : ρ) : Prop := r' = r ∨ f.isSet r = false ∧ ∃ t, r' = f.set t r

/-- The row has the flag afterwards exactly if it had it or passes the test. -/
structure Marks (p : ρ → Prop) (r r' : ρ) : Prop where
  kept : f.Kept r r'
  isSet : f.isSet r' = true ↔ f.isSet r = true ∨ p r

/-- A row that passes the test may have got the flag. -/
structure MayMark (p : ρ → Prop) (r r' : ρ) : Prop where
  kept : f.Kept r r'
  isSet : f.isSet r' = true → f.isSet r = true ∨ p r

/-- The test does not look at the flag or the stamp. -/
def Blind (p : ρ → Prop) : Prop := ∀ t r, p (f.set t r) ↔ p r

variable {f} {p q : ρ → Prop} {r r' r'' : ρ}

theorem Kept.trans (h : f.Kept r r') (h' : f.Kept r' r'') : f.Kept r r'' := by
  rcases h with rfl | ⟨hunset, t, rfl⟩
  · exact h'
  · rcases h' with rfl | ⟨hset, -⟩
    · exact .inr ⟨hunset, t, rfl⟩
    · rw [f.isSet_set] at hset
      cases hset

theorem Blind.of_kept (hp : f.Blind p) (h : f.Kept r r') : p r' ↔ p r := by
  rcases h with rfl | ⟨-, t, rfl⟩
  · exact Iff.rfl
  · exact hp t r

theorem Kept.eq_of_isSet (h : f.Kept r r') (hset : f.isSet r = true) : r' = r := by
  rcases h with rfl | ⟨hunset, -⟩
  · rfl
  · rw [hset] at hunset
    cases hunset

theorem Marks.refl (r : ρ) : f.Marks (fun _ => False) r r :=
  ⟨.inl rfl, by rw [or_false]⟩

theorem Marks.trans (hq : f.Blind q) (h : f.Marks p r r') (h' : f.Marks q r' r'') :
    f.Marks (fun r => p r ∨ q r) r r'' where
  kept := h.kept.trans h'.kept
  isSet := by rw [h'.isSet, h.isSet, hq.of_kept h.kept, or_assoc]

theorem MayMark.again (hp : f.Blind p) (h : f.MayMark p r r') (h' : f.Marks p r' r'') :
    f.Marks p r r'' where
  kept := h.kept.trans h'.kept
  isSet := by
    rw [h'.isSet, hp.of_kept h.kept]
    constructor
    · rintro (hset | hpr)
      · exact h.isSet hset
      · exact .inr hpr
    · rintro (hset | hpr)
      · rw [h.kept.eq_of_isSet hset]
        exact .inl hset
      · exact .inr hpr

theorem Marks.congr (h : f.Marks p r r') (hpq : p r ↔ q r) : f.Marks q r r' :=
  ⟨h.kept, by rw [h.isSet, hpq]⟩

theorem marks_ite (t : τ) (test : ρ → Bool) (r : ρ) :
    f.Marks (fun r => test r = true) r (if test r && !f.isSet r then f.set t r else r) := by
  split
  · rename_i h
    rw [Bool.and_eq_true, Bool.not_eq_true'] at h
    exact ⟨.inr ⟨h.2, t, rfl⟩, iff_of_true (f.isSet_set t r) (.inr h.1)⟩
  · rename_i h
    refine ⟨.inl rfl, ?_⟩
    rw [Bool.and_eq_true, Bool.not_eq_true', not_and, Bool.not_eq_false] at h
    exact ⟨.inl, fun hor => hor.elim id h⟩

variable {l l' l'' : List ρ}

theorem forall₂_trans {R S U : ρ → ρ → Prop} (hcomp : ∀ {a b c}, R a b → S b c → U a c)
    (h : Forall₂ R l l') (h' : Forall₂ S l' l'') : Forall₂ U l l'' := by
  induction h generalizing l'' with
  | nil =>
    cases h'
    exact .nil
  | cons hab _ ih =>
    cases h' with
    | cons hbc htail => exact .cons (hcomp hab hbc) (ih htail)

theorem forall₂_map {R : ρ → ρ → Prop} {g : ρ → ρ} (h : ∀ r, R r (g r)) (l : List ρ) :
    Forall₂ R l (l.map g) := by
  rw [forall₂_map_right_iff, forall₂_same]
  exact fun r _ => h r

theorem map_isSet_eq (h : Forall₂ (f.Marks p) l l') (h' : Forall₂ (f.Marks p) l l'') :
    l'.map f.isSet = l''.map f.isSet := by
  induction h generalizing l'' with
  | nil =>
    cases h'
    rfl
  | cons hr _ ih =>
    cases h' with
    | cons hr' htail =>
      have hsame := hr.isSet.trans hr'.isSet.symm
      rw [map_cons, map_cons, ih htail, Bool.eq_iff_iff.mpr hsame]

end Flag

end StampOnce
