import NonokaIM.Library.DocumentStore

/-! Updates of all documents that match a filter. A failing update has reached some of them. -/

namespace DocumentStore

open List Collection

variable {ρ κ : Type*} {keys : ρ → List κ}

/-- A change of a document that leaves its index keys alone. -/
structure Update (keys : ρ → List κ) where
  set : ρ → ρ
  keys_set : ∀ r, keys (set r) = keys r

/-- How an update of many documents ends: undisturbed, or with an error after the documents
in `reached` were changed. -/
inductive UpdateFault (ρ : Type*) where
  | none
  | failed (reached : ρ → Bool) (text : String)

namespace Collection

/-- Change the documents that pass the test. -/
def update (c : Collection keys) (p : ρ → Bool) (u : Update keys) : Collection keys where
  rows := c.rows.map fun r => if p r then u.set r else r
  unique := by
    apply pairwise_map.mpr
    apply c.unique.imp
    have hkeys : ∀ r, keys (if p r then u.set r else r) = keys r := by
      intro r
      split
      · exact u.keys_set r
      · rfl
    intro a b hab hconflict
    unfold Conflict at hconflict
    rw [hkeys, hkeys] at hconflict
    exact hab hconflict

@[simp] theorem rows_update (c : Collection keys) (p : ρ → Bool) (u : Update keys) :
    (c.update p u).rows = c.rows.map fun r => if p r then u.set r else r := rfl

variable {c : Collection keys} {p : ρ → Bool} {u : Update keys}

theorem mem_update {x : ρ} :
    x ∈ (c.update p u).rows ↔ ∃ r ∈ c.rows, (if p r then u.set r else r) = x := by
  rw [rows_update, mem_map]

theorem forall_update {Q : ρ → Prop} :
    (∀ x ∈ (c.update p u).rows, Q x) ↔
      ∀ r ∈ c.rows, (p r = true → Q (u.set r)) ∧ (p r = false → Q r) := by
  rw [rows_update, forall_mem_map]
  apply forall₂_congr
  intro r _
  cases p r <;> simp

theorem update_eq_self (h : ∀ r ∈ c.rows, p r = false) : c.update p u = c := by
  ext1
  rw [rows_update]
  conv_rhs => rw [← map_id c.rows]
  apply map_congr_left
  intro r hr
  simp [h r hr]

/-- An update that changes every document it is made for leaves a collection alone exactly
when no document passes the test. -/
theorem update_eq_self_iff (hset : ∀ r, p r = true → u.set r ≠ r) :
    c.update p u = c ↔ ∀ r ∈ c.rows, p r = false := by
  constructor
  · intro heq r hr
    cases hp : p r with
    | false => rfl
    | true =>
      have hrows : c.rows.map (fun r => if p r then u.set r else r) = c.rows.map id := by
        rw [map_id, ← rows_update, heq]
      have hfix := map_inj_left.mp hrows r hr
      simp only [hp, if_true, id_eq] at hfix
      exact absurd hfix (hset r hp)
  · exact update_eq_self

theorem find?_update (hset : ∀ r, p r = true → p (u.set r) = true) :
    (c.update p u).rows.find? p = (c.rows.find? p).map u.set := by
  rw [rows_update]
  induction c.rows with
  | nil => rfl
  | cons r rows ih =>
    rw [map_cons]
    cases hp : p r with
    | true => simp [hp, hset r hp]
    | false => simpa [find?_cons, hp] using ih

theorem find?_tryInsert [DecidableEq κ] {d : ρ} (hd : p d = true)
    (hkey : ∀ r, Conflict keys r d ↔ p r = true) :
    (c.tryInsert false d).1.rows.find? p = some ((c.rows.find? p).getD d) ∧
      ((c.tryInsert false d).2 = .stored ↔ c.rows.find? p = none) := by
  have hblocked : Blocked keys c.rows d ↔ c.rows.find? p ≠ none := by
    simp only [Blocked, hkey, ne_eq, find?_eq_none, not_forall, not_not, exists_prop]
  by_cases hb : Blocked keys c.rows d
  · rw [tryInsert_of_blocked hb]
    rcases Option.ne_none_iff_exists'.mp (hblocked.mp hb) with ⟨r, hr⟩
    simp [hr]
  · rw [tryInsert_of_not_blocked hb]
    have hnone : c.rows.find? p = none := by
      by_contra hne
      exact hb (hblocked.mpr hne)
    simp [rows_insert_of_not_blocked hb, find?_append, hnone, hd]

end Collection

/-- Change the documents that match a filter. The reply is their number, or the error. -/
def updateMany (c : Collection keys) (fault : UpdateFault ρ) (p : ρ → Bool) (u : Update keys) :
    Collection keys × Except String ℕ :=
  match fault with
  | .none => (c.update p u, .ok (c.rows.countP p))
  | .failed reached text => (c.update (fun r => p r && reached r) u, .error text)

variable {c : Collection keys}

theorem mem_updateMany {fault : UpdateFault ρ} {p : ρ → Bool} {u : Update keys} {x : ρ}
    (h : x ∈ (updateMany c fault p u).1.rows) : ∃ r ∈ c.rows, x = r ∨ x = u.set r := by
  have hupdate : ∀ q, x ∈ (c.update q u).rows → ∃ r ∈ c.rows, x = r ∨ x = u.set r := by
    intro q hq
    obtain ⟨r, hr, hx⟩ := mem_update.mp hq
    refine ⟨r, hr, ?_⟩
    split at hx
    · exact .inr hx.symm
    · exact .inl hx.symm
  cases fault with
  | none | failed reached text => exact hupdate _ h

theorem exists_mem_updateMany (fault : UpdateFault ρ) (p : ρ → Bool) (u : Update keys) {r : ρ}
    (h : r ∈ c.rows) : ∃ x ∈ (updateMany c fault p u).1.rows, x = r ∨ x = u.set r := by
  have hupdate : ∀ q : ρ → Bool, ∃ x ∈ (c.update q u).rows, x = r ∨ x = u.set r := by
    intro q
    refine ⟨_, mem_update.mpr ⟨r, h, rfl⟩, ?_⟩
    split
    · exact .inr rfl
    · exact .inl rfl
  cases fault with
  | none | failed reached text => exact hupdate _

theorem filter_updateMany {fault : UpdateFault ρ} {p : ρ → Bool} {u : Update keys} {β : Type*}
    [DecidableEq β] (f : ρ → β) {a b : β} (hab : a ≠ b) (hp : ∀ r, p r = true → f r = a)
    (hset : ∀ r, f (u.set r) = f r) :
    ((updateMany c fault p u).1.rows.filter fun r => f r = b) = c.rows.filter fun r => f r = b := by
  have hupdate : ∀ p' : ρ → Bool, (∀ r, p' r = true → f r = a) →
      ((c.update p' u).rows.filter fun r => f r = b) = c.rows.filter fun r => f r = b := by
    intro p' hp'
    rw [rows_update]
    induction c.rows with
    | nil => rfl
    | cons r rows ih =>
      rw [map_cons, filter_cons, filter_cons, ih]
      cases hr : p' r with
      | false => rfl
      | true => simp [hset, hp' r hr, hab]
  cases fault with
  | none => exact hupdate p hp
  | failed reached text =>
    apply hupdate
    intro r hr
    exact hp r (Bool.and_eq_true_iff.mp hr).1

end DocumentStore
