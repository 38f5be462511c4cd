import Mathlib.Data.List.Basic
import Mathlib.Data.List.Pairwise

/-! Collections of documents under unique indexes: no two rows of a collection share an index
key. -/

namespace DocumentStore

open List

variable {ρ κ : Type*}

/-- Two rows conflict when some unique index gives them the same key. -/
def Conflict (keys : ρ → List κ) (a b : ρ) : Prop := ∃ k ∈ keys a, k ∈ keys b

instance [DecidableEq κ] (keys : ρ → List κ) (a b : ρ) : Decidable (Conflict keys a b) :=
  inferInstanceAs (Decidable (∃ k ∈ keys a, k ∈ keys b))

variable {keys : ρ → List κ}

theorem Conflict.symm {a b : ρ} (h : Conflict keys a b) : Conflict keys b a := by
  obtain ⟨k, ha, hb⟩ := h
  exact ⟨k, hb, ha⟩

/-- A stored row occupies a key that the new row needs. -/
def Blocked (keys : ρ → List κ) (rows : List ρ) (r : ρ) : Prop :=
  ∃ x ∈ rows, Conflict keys x r

instance [DecidableEq κ] (keys : ρ → List κ) (rows : List ρ) (r : ρ) :
    Decidable (Blocked keys rows r) :=
  inferInstanceAs (Decidable (∃ x ∈ rows, Conflict keys x r))

theorem Blocked.mono {rows rows' : List ρ} {r : ρ} (hsub : rows ⊆ rows') (h : Blocked keys rows r) :
    Blocked keys rows' r := by
  obtain ⟨x, hx, hc⟩ := h
  exact ⟨x, hsub hx, hc⟩

@[simp] theorem blocked_append {rows rows' : List ρ} {r : ρ} :
    Blocked keys (rows ++ rows') r ↔ Blocked keys rows r ∨ Blocked keys rows' r := by
  simp only [Blocked, mem_append, or_and_right, exists_or]

@[simp] theorem blocked_singleton {x r : ρ} : Blocked keys [x] r ↔ Conflict keys x r := by
  simp [Blocked]

/-- A list of rows in which the unique indexes hold. -/
structure Collection (keys : ρ → List κ) where
  rows : List ρ
  unique : rows.Pairwise (fun a b => ¬ Conflict keys a b)

namespace Collection

variable {keys : ρ → List κ}

@[ext] theorem ext {c d : Collection keys} (h : c.rows = d.rows) : c = d := by
  cases c
  cases d
  simpa using h

/-- The collection without rows. -/
def empty : Collection keys := ⟨[], Pairwise.nil⟩

instance : Inhabited (Collection keys) := ⟨empty⟩

@[simp] theorem rows_empty : (empty : Collection keys).rows = [] := rfl

theorem unique_append {rows : List ρ} {r : ρ}
    (hu : rows.Pairwise (fun a b => ¬ Conflict keys a b)) (h : ¬ Blocked keys rows r) :
    (rows ++ [r]).Pairwise (fun a b => ¬ Conflict keys a b) := by
  apply pairwise_append.mpr
  refine ⟨hu, by simp, ?_⟩
  intro a ha b hb hc
  rw [mem_singleton.mp hb] at hc
  exact h ⟨a, ha, hc⟩

variable (c : Collection keys)

theorem eq_of_conflict {a b : ρ} (ha : a ∈ c.rows) (hb : b ∈ c.rows)
    (hc : Conflict keys a b) : a = b := by
  by_contra hne
  have hpair : Std.Symm fun a b => ¬ Conflict keys a b := ⟨fun _ _ h hc => h hc.symm⟩
  exact c.unique.forall ha hb hne hc

theorem nodup_map_filter {β : Type*} {p : ρ → Bool} {f : ρ → β}
    (h : ∀ a b, p a = true → p b = true → f a = f b → Conflict keys a b) :
    ((c.rows.filter p).map f).Nodup := by
  apply pairwise_map.mpr
  apply pairwise_filter.mpr
  apply c.unique.imp
  intro a b hab ha hb hf
  exact hab (h a b ha hb hf)

variable [DecidableEq κ]

/-- Store a row unless a unique index forbids it. -/
def insert (c : Collection keys) (r : ρ) : Collection keys :=
  if h : Blocked keys c.rows r then c else ⟨c.rows ++ [r], unique_append c.unique h⟩

theorem rows_insert (r : ρ) :
    (c.insert r).rows = if Blocked keys c.rows r then c.rows else c.rows ++ [r] := by
  unfold insert
  split <;> rfl

theorem rows_insert_of_not_blocked {c : Collection keys} {r : ρ} (h : ¬ Blocked keys c.rows r) :
    (c.insert r).rows = c.rows ++ [r] := by
  rw [rows_insert, if_neg h]

/-- Remove the rows that pass a test. -/
def delete (c : Collection keys) (p : ρ → Bool) : Collection keys :=
  ⟨c.rows.filter fun r => !p r, c.unique.filter _⟩

omit [DecidableEq κ] in
@[simp] theorem rows_delete (p : ρ → Bool) :
    (c.delete p).rows = c.rows.filter fun r => !p r := rfl

end Collection

/-- What the server did with one document of an insert. -/
inductive Fate where
  | stored
  | duplicate
  | refused
  deriving DecidableEq

/-- The fate of a document that is sent once more. -/
def Fate.again : Fate → Fate
  | .stored => .duplicate
  | .duplicate => .duplicate
  | .refused => .refused

/-- How a call to an outside service ends: undisturbed, failed without effect, or carried out
although an error is reported. -/
inductive CallFault where
  | none
  | failed
  | lost
  deriving DecidableEq

/-- The service carried the call out. -/
def CallFault.applied : CallFault → Bool
  | .none => true
  | .failed => false
  | .lost => true

/-- The caller is told of an error. -/
def CallFault.reported : CallFault → Bool
  | .none => false
  | .failed => true
  | .lost => true

/-- `refused i` gives document `i` an error other than a duplicate key, `concern` adds a
write-concern error to a finished write, and with `lost` the reply does not arrive. -/
structure WriteFault where
  refused : ℕ → Bool := fun _ => false
  lost : Bool := false
  concern : Bool := false

namespace WriteFault

/-- The write goes through undisturbed. -/
def none : WriteFault := {}

/-- Every document is refused. -/
def refuseAll : WriteFault := { refused := fun _ => true }

@[simp] theorem none_refused (i : ℕ) : none.refused i = false := rfl

@[simp] theorem none_lost : none.lost = false := rfl

@[simp] theorem none_concern : none.concern = false := rfl

@[simp] theorem refuseAll_refused (i : ℕ) : refuseAll.refused i = true := rfl

@[simp] theorem refuseAll_lost : refuseAll.lost = false := rfl

end WriteFault

namespace Collection

variable {keys : ρ → List κ} [DecidableEq κ]

/-- One document of an insert command. -/
def tryInsert (c : Collection keys) (refused : Bool) (d : ρ) : Collection keys × Fate :=
  if refused then (c, .refused)
  else if Blocked keys c.rows d then (c, .duplicate)
  else (c.insert d, .stored)

/-- An unordered bulk insert: the documents are tried one after another, and an error on one
of them does not keep the others out. -/
def insertMany : Collection keys → (ℕ → Bool) → List ρ → Collection keys × List Fate
  | c, _, [] => (c, [])
  | c, refused, d :: ds =>
    let first := c.tryInsert (refused 0) d
    let rest := insertMany first.1 (fun i => refused (i + 1)) ds
    (rest.1, first.2 :: rest.2)

@[simp] theorem insertMany_nil (c : Collection keys) (refused : ℕ → Bool) :
    c.insertMany refused [] = (c, []) := rfl

theorem insertMany_cons (c : Collection keys) (refused : ℕ → Bool) (d : ρ) (ds : List ρ) :
    c.insertMany refused (d :: ds) =
      (((c.tryInsert (refused 0) d).1.insertMany (fun i => refused (i + 1)) ds).1,
        (c.tryInsert (refused 0) d).2 ::
          ((c.tryInsert (refused 0) d).1.insertMany (fun i => refused (i + 1)) ds).2) := rfl

/-- A bulk insert that is not disturbed. -/
def insertAll (c : Collection keys) (ds : List ρ) : Collection keys × List Fate :=
  c.insertMany (fun _ => false) ds

/-! ## One document -/

theorem tryInsert_refused (c : Collection keys) (d : ρ) : c.tryInsert true d = (c, .refused) := rfl

variable {c : Collection keys} {d : ρ} {refused : ℕ → Bool} {ds : List ρ}

theorem tryInsert_of_blocked (h : Blocked keys c.rows d) :
    c.tryInsert false d = (c, .duplicate) := by
  simp [tryInsert, h]

theorem tryInsert_of_not_blocked (h : ¬ Blocked keys c.rows d) :
    c.tryInsert false d = (c.insert d, .stored) := by
  simp [tryInsert, h]

theorem tryInsert_cases (c : Collection keys) (refused : Bool) (d : ρ) :
    (refused = true ∧ c.tryInsert refused d = (c, .refused)) ∨
    (refused = false ∧ Blocked keys c.rows d ∧ c.tryInsert refused d = (c, .duplicate)) ∨
    (refused = false ∧ ¬ Blocked keys c.rows d ∧
      c.tryInsert refused d = (c.insert d, .stored)) := by
  cases refused with
  | true => exact .inl ⟨rfl, rfl⟩
  | false =>
    by_cases h : Blocked keys c.rows d
    · exact .inr (.inl ⟨rfl, h, tryInsert_of_blocked h⟩)
    · exact .inr (.inr ⟨rfl, h, tryInsert_of_not_blocked h⟩)

theorem subset_tryInsert (c : Collection keys) (refused : Bool) (d : ρ) :
    c.rows ⊆ (c.tryInsert refused d).1.rows := by
  rcases c.tryInsert_cases refused d with ⟨_, h⟩ | ⟨_, _, h⟩ | ⟨_, hb, h⟩
  · rw [h]
    exact Subset.refl _
  · rw [h]
    exact Subset.refl _
  · rw [h]
    simp only [rows_insert_of_not_blocked hb]
    exact subset_append_left _ _

theorem mem_tryInsert {refused : Bool} {x : ρ} (hx : x ∈ (c.tryInsert refused d).1.rows) :
    x ∈ c.rows ∨ (x = d ∧ ¬ Blocked keys c.rows d) := by
  rcases c.tryInsert_cases refused d with ⟨_, h⟩ | ⟨_, _, h⟩ | ⟨_, hb, h⟩
  · rw [h] at hx
    exact .inl hx
  · rw [h] at hx
    exact .inl hx
  · rw [h] at hx
    simp only [rows_insert_of_not_blocked hb, mem_append, mem_singleton] at hx
    exact hx.imp id (fun he => ⟨he, hb⟩)

/-! ## A bulk insert -/

theorem subset_insertMany (c : Collection keys) (refused : ℕ → Bool) (ds : List ρ) :
    c.rows ⊆ (c.insertMany refused ds).1.rows := by
  induction ds generalizing c refused with
  | nil => exact Subset.refl _
  | cons d ds ih => exact Subset.trans (c.subset_tryInsert (refused 0) d) (ih _ _)

theorem mem_insertMany {x : ρ} (hx : x ∈ (c.insertMany refused ds).1.rows) :
    x ∈ c.rows ∨ (x ∈ ds ∧ ¬ Blocked keys c.rows x) := by
  induction ds generalizing c refused with
  | nil => exact .inl hx
  | cons d ds ih =>
    rcases ih hx with hx | ⟨hx, hb⟩
    · rcases mem_tryInsert hx with hx | ⟨rfl, hb⟩
      · exact .inl hx
      · exact .inr ⟨mem_cons_self, hb⟩
    · refine .inr ⟨mem_cons_of_mem d hx, ?_⟩
      intro hc
      exact hb (hc.mono (c.subset_tryInsert (refused 0) d))

@[simp] theorem length_fates (c : Collection keys) (refused : ℕ → Bool) (ds : List ρ) :
    (c.insertMany refused ds).2.length = ds.length := by
  induction ds generalizing c refused with
  | nil => rfl
  | cons d ds ih => simp [insertMany_cons, ih]

theorem stored_or_blocked (i : ℕ) (d : ρ) (hd : ds[i]? = some d) (hr : refused i = false) :
    d ∈ (c.insertMany refused ds).1.rows ∨ Blocked keys (c.insertMany refused ds).1.rows d := by
  induction ds generalizing c refused i with
  | nil => simp at hd
  | cons e ds ih =>
    cases i with
    | zero =>
      obtain rfl : e = d := by simpa using hd
      have hsub := subset_insertMany (c.tryInsert (refused 0) e).1 (fun i => refused (i + 1)) ds
      rcases c.tryInsert_cases (refused 0) e with ⟨ht, _⟩ | ⟨_, hb, h⟩ | ⟨_, hb, h⟩
      · rw [hr] at ht
        cases ht
      · rw [h] at hsub
        rw [insertMany_cons, h]
        exact .inr (hb.mono hsub)
      · rw [h] at hsub
        rw [insertMany_cons, h]
        refine .inl (hsub ?_)
        simp [rows_insert_of_not_blocked hb]
    | succ i => exact ih i (by simpa using hd) hr

theorem refused_of_mem_fates (h : Fate.refused ∈ (c.insertMany refused ds).2) :
    ∃ i < ds.length, refused i = true := by
  induction ds generalizing c refused with
  | nil => simp at h
  | cons d ds ih =>
    rw [insertMany_cons] at h
    rcases mem_cons.mp h with h | h
    · refine ⟨0, by simp, ?_⟩
      rcases c.tryInsert_cases (refused 0) d with ⟨ht, _⟩ | ⟨_, _, he⟩ | ⟨_, _, he⟩
      · exact ht
      · rw [he] at h
        cases h
      · rw [he] at h
        cases h
    · obtain ⟨i, hi, ht⟩ := ih h
      exact ⟨i + 1, by simpa using hi, ht⟩

theorem mem_fates_of_refused {i : ℕ} (hi : i < ds.length) (h : refused i = true) :
    Fate.refused ∈ (c.insertMany refused ds).2 := by
  induction ds generalizing c refused i with
  | nil => simp at hi
  | cons d ds ih =>
    rw [insertMany_cons]
    cases i with
    | zero =>
      rw [h]
      exact mem_cons_self
    | succ i => exact mem_cons_of_mem _ (ih (by simpa using hi) h)

theorem insertMany_congr {refused' : ℕ → Bool} (h : ∀ i < ds.length, refused i = refused' i) :
    c.insertMany refused ds = c.insertMany refused' ds := by
  induction ds generalizing c refused refused' with
  | nil => rfl
  | cons d ds ih =>
    have htail : ∀ i < ds.length, refused (i + 1) = refused' (i + 1) := by
      intro i hi
      exact h (i + 1) (by simpa using hi)
    rw [insertMany_cons, insertMany_cons, h 0 (by simp), ih htail]

theorem insertMany_eq_insertAll (h : Fate.refused ∉ (c.insertMany refused ds).2) :
    c.insertMany refused ds = c.insertAll ds := by
  apply insertMany_congr
  intro i hi
  by_contra hr
  exact h (mem_fates_of_refused hi (by simpa using hr))

theorem not_refused_mem_insertAll : Fate.refused ∉ (c.insertAll ds).2 := by
  intro h
  obtain ⟨i, _, hi⟩ := refused_of_mem_fates h
  cases hi

theorem stored_or_blocked_insertAll (hd : d ∈ ds) :
    d ∈ (c.insertAll ds).1.rows ∨ Blocked keys (c.insertAll ds).1.rows d := by
  obtain ⟨i, hi⟩ := mem_iff_getElem?.mp hd
  exact stored_or_blocked i d hi rfl

theorem mem_or_conflict_insertAll (hd : d ∈ ds) (hfree : ¬ Blocked keys c.rows d) :
    d ∈ (c.insertAll ds).1.rows ∨
      ∃ x ∈ ds, x ∈ (c.insertAll ds).1.rows ∧ ¬ Blocked keys c.rows x ∧ Conflict keys x d := by
  rcases stored_or_blocked_insertAll (c := c) hd with hmem | ⟨x, hx, hc⟩
  · exact .inl hmem
  · rcases mem_insertMany hx with hold | ⟨hnew, hxfree⟩
    · exact absurd ⟨x, hold, hc⟩ hfree
    · exact .inr ⟨x, hnew, hx, hxfree, hc⟩

theorem rows_of_all_stored (h : ∀ f ∈ (c.insertMany refused ds).2, f = .stored) :
    (c.insertMany refused ds).1.rows = c.rows ++ ds := by
  induction ds generalizing c refused with
  | nil => simp
  | cons d ds ih =>
    rw [insertMany_cons] at h ⊢
    have hd := h _ mem_cons_self
    have hds := ih (fun f hf => h f (mem_cons_of_mem _ hf))
    rcases c.tryInsert_cases (refused 0) d with ⟨_, he⟩ | ⟨_, _, he⟩ | ⟨_, hb, he⟩
    · rw [he] at hd
      cases hd
    · rw [he] at hd
      cases hd
    · rw [he] at hds ⊢
      simpa [rows_insert_of_not_blocked hb] using hds

theorem all_stored (hr : ∀ i < ds.length, refused i = false)
    (hb : ∀ d ∈ ds, ¬ Blocked keys c.rows d) (hp : ds.Pairwise (fun a b => ¬ Conflict keys a b)) :
    ∀ f ∈ (c.insertMany refused ds).2, f = .stored := by
  induction ds generalizing c refused with
  | nil => simp
  | cons d ds ih =>
    have hd : ¬ Blocked keys c.rows d := hb d mem_cons_self
    have h0 : refused 0 = false := hr 0 (by simp)
    obtain ⟨hhead, htail⟩ := pairwise_cons.mp hp
    rw [insertMany_cons, h0, tryInsert_of_not_blocked hd]
    intro f hf
    rcases mem_cons.mp hf with rfl | hf
    · rfl
    · refine ih (fun i hi => hr (i + 1) (by simpa using hi)) ?_ htail f hf
      intro x hx
      rw [rows_insert_of_not_blocked hd, blocked_append, blocked_singleton, not_or]
      exact ⟨hb x (mem_cons_of_mem _ hx), hhead x hx⟩

theorem insertMany_again (hself : ∀ d, Conflict keys d d) {c' : Collection keys}
    (hsub : (c.insertMany refused ds).1.rows ⊆ c'.rows) :
    c'.insertMany refused ds = (c', (c.insertMany refused ds).2.map Fate.again) := by
  induction ds generalizing c refused with
  | nil => rfl
  | cons d ds ih =>
    have hfirst : c'.tryInsert (refused 0) d = (c', (c.tryInsert (refused 0) d).2.again) := by
      have hkept := Subset.trans (subset_insertMany _ (fun i => refused (i + 1)) ds) hsub
      rcases c.tryInsert_cases (refused 0) d with ⟨hr, h⟩ | ⟨hr, hb, h⟩ | ⟨hr, hb, h⟩
      · rw [h, hr]
        rfl
      · rw [h] at hkept ⊢
        rw [hr, tryInsert_of_blocked (hb.mono hkept)]
        rfl
      · rw [h] at hkept ⊢
        have hmem : d ∈ c'.rows := hkept (by simp [rows_insert_of_not_blocked hb])
        rw [hr, tryInsert_of_blocked ⟨d, hmem, hself d⟩]
        rfl
    rw [insertMany_cons, insertMany_cons, hfirst, ih hsub]
    rfl

theorem insertMany_refuseAll (hr : ∀ i < ds.length, refused i = true) :
    (c.insertMany refused ds).1 = c := by
  induction ds generalizing c refused with
  | nil => rfl
  | cons d ds ih =>
    rw [insertMany_cons, hr 0 (by simp), tryInsert_refused]
    exact ih (fun i hi => hr (i + 1) (by simpa using hi))

theorem insertMany_only {p : ℕ} (hd : ds[p]? = some d) (hfree : ¬ Blocked keys c.rows d)
    (hp : refused p = false) (hother : ∀ i, i ≠ p → refused i = true) :
    (c.insertMany refused ds).1.rows = c.rows ++ [d] := by
  induction ds generalizing refused p with
  | nil => simp at hd
  | cons e ds ih =>
    cases p with
    | zero =>
      obtain rfl : e = d := by simpa using hd
      have hrest : ∀ i < ds.length, refused (i + 1) = true :=
        fun i _ => hother (i + 1) (by omega)
      rw [insertMany_cons, hp, tryInsert_of_not_blocked hfree]
      simp only [insertMany_refuseAll hrest]
      exact rows_insert_of_not_blocked hfree
    | succ p =>
      rw [insertMany_cons, hother 0 (by omega), tryInsert_refused]
      refine ih (by simpa using hd) hp ?_
      intro i hi
      exact hother (i + 1) (by omega)

end Collection

/-! ## Replies -/

/-- The reply of an insert of one document. -/
inductive OneReply where
  | ok
  | duplicate
  | failed
  deriving DecidableEq

/-- The reply of a bulk insert; a bulk-write exception carries the fate of every document. -/
inductive BulkReply where
  | ok
  | bulk (fates : List Fate)
  | failed

/-- The exception has write errors, and each of them is a duplicate key. -/
def allDuplicate (fates : List Fate) : Bool :=
  fates.any (· ≠ .stored) && fates.all (· ≠ .refused)

variable {keys : ρ → List κ} [DecidableEq κ] (c : Collection keys) (fault : WriteFault)

/-- Insert one document under a fault. -/
def insertOne (d : ρ) : Collection keys × OneReply :=
  let r := c.tryInsert (fault.refused 0) d
  (r.1, if fault.lost then .failed
    else match r.2 with
      | .stored => if fault.concern then .failed else .ok
      | .duplicate => .duplicate
      | .refused => .failed)

/-- Insert several documents, unordered, under a fault. -/
def insertBulk (ds : List ρ) : Collection keys × BulkReply :=
  let r := c.insertMany fault.refused ds
  (r.1, if fault.lost then .failed
    else if r.2.all (· = .stored) && !fault.concern then .ok
    else .bulk r.2)

theorem insertOne_cases (d : ρ) :
    ((insertOne c fault d).2 = .ok ∧ ¬ Blocked keys c.rows d ∧
      (insertOne c fault d).1 = c.insert d) ∨
    ((insertOne c fault d).2 = .duplicate ∧ Blocked keys c.rows d ∧
      (insertOne c fault d).1 = c) ∨
    ((insertOne c fault d).2 = .failed ∧ ((insertOne c fault d).1 = c ∨
      (¬ Blocked keys c.rows d ∧ (insertOne c fault d).1 = c.insert d))) := by
  unfold insertOne
  rcases c.tryInsert_cases (fault.refused 0) d with ⟨_, h⟩ | ⟨_, hb, h⟩ | ⟨_, hb, h⟩
  · rw [h]
    cases fault.lost <;> simp
  · rw [h]
    cases fault.lost <;> simp [hb]
  · rw [h]
    cases fault.lost <;> cases fault.concern <;> simp [hb]

theorem subset_insertOne (d : ρ) : c.rows ⊆ (insertOne c fault d).1.rows :=
  c.subset_tryInsert (fault.refused 0) d

variable {c : Collection keys}

theorem filter_insertOne {d : ρ} {q : ρ → Bool} (hd : q d = false) :
    (insertOne c fault d).1.rows.filter q = c.rows.filter q := by
  have hinsert : ¬ Blocked keys c.rows d → (c.insert d).rows.filter q = c.rows.filter q := by
    intro hfree
    rw [Collection.rows_insert_of_not_blocked hfree, filter_append]
    simp [hd]
  rcases insertOne_cases c fault d with ⟨_, hfree, h⟩ | ⟨_, _, h⟩ | ⟨_, h | ⟨hfree, h⟩⟩
  · rw [h, hinsert hfree]
  · rw [h]
  · rw [h]
  · rw [h, hinsert hfree]

theorem insertOne_none_of_blocked {d : ρ} (h : Blocked keys c.rows d) :
    insertOne c .none d = (c, .duplicate) := by
  simp [insertOne, Collection.tryInsert_of_blocked h]

theorem insertOne_none_of_not_blocked {d : ρ} (h : ¬ Blocked keys c.rows d) :
    insertOne c .none d = (c.insert d, .ok) := by
  simp [insertOne, Collection.tryInsert_of_not_blocked h]

variable {fault : WriteFault} {ds : List ρ}

theorem insertBulk_ok_fates (h : (insertBulk c fault ds).2 = .ok) :
    ∀ f ∈ (c.insertMany fault.refused ds).2, f = .stored := by
  unfold insertBulk at h
  cases hl : fault.lost with
  | true => simp [hl] at h
  | false =>
    by_cases hall : ((c.insertMany fault.refused ds).2.all (· = .stored) && !fault.concern) = true
    · simp only [Bool.and_eq_true, all_eq_true, decide_eq_true_eq] at hall
      exact hall.1
    · simp [hl, hall] at h

theorem insertBulk_bulk {fates : List Fate} (h : (insertBulk c fault ds).2 = .bulk fates) :
    fates = (c.insertMany fault.refused ds).2 := by
  unfold insertBulk at h
  cases hl : fault.lost with
  | true => simp [hl] at h
  | false =>
    by_cases hall : ((c.insertMany fault.refused ds).2.all (· = .stored) && !fault.concern) = true
    · simp [hl, hall] at h
    · simp only [hl, hall] at h
      simpa using h.symm

/-- How a caller that takes duplicate keys for success reads a reply: whether anything was a
duplicate, or nothing when there is another error. -/
def BulkReply.verdict : BulkReply → Option Bool
  | .ok => some false
  | .bulk fates => if allDuplicate fates then some true else none
  | .failed => none

theorem insertBulk_verdict {dup : Bool} (h : (insertBulk c fault ds).2.verdict = some dup) :
    c.insertMany fault.refused ds = c.insertAll ds ∧
      dup = (c.insertAll ds).2.any (· ≠ .stored) := by
  cases hr : (insertBulk c fault ds).2 with
  | ok =>
    have hall := insertBulk_ok_fates hr
    have hno : Fate.refused ∉ (c.insertMany fault.refused ds).2 := by
      intro hmem
      have hstored := hall _ hmem
      cases hstored
    have heq := Collection.insertMany_eq_insertAll hno
    rw [hr] at h
    obtain rfl : false = dup := by simpa [BulkReply.verdict] using h
    refine ⟨heq, ?_⟩
    rw [heq] at hall
    symm
    simpa using hall
  | bulk fates =>
    rw [hr] at h
    have had : allDuplicate fates = true ∧ true = dup := by
      simpa [BulkReply.verdict] using h
    obtain ⟨had, rfl⟩ := had
    rw [insertBulk_bulk hr] at had
    simp only [allDuplicate, Bool.and_eq_true] at had
    have hno : Fate.refused ∉ (c.insertMany fault.refused ds).2 := by
      intro hmem
      have hne := all_eq_true.mp had.2 _ hmem
      simp at hne
    have heq := Collection.insertMany_eq_insertAll hno
    rw [heq] at had
    exact ⟨heq, had.1.symm⟩
  | failed =>
    rw [hr] at h
    cases h

theorem insertBulk_none_verdict :
    (insertBulk c .none ds).2.verdict = some ((c.insertAll ds).2.any (· ≠ .stored)) := by
  have hrefused : (c.insertAll ds).2.all (· ≠ .refused) = true := by
    apply all_eq_true.mpr
    intro f hf
    have hne : f ≠ .refused := by
      intro he
      rw [he] at hf
      exact Collection.not_refused_mem_insertAll hf
    simpa using hne
  change (if (c.insertAll ds).2.all (· = .stored) && true then BulkReply.ok
    else .bulk (c.insertAll ds).2).verdict = _
  by_cases hall : ((c.insertAll ds).2.all (· = .stored)) = true
  · simp only [hall, Bool.and_true, if_true, BulkReply.verdict]
    simpa using hall
  · have hany : (c.insertAll ds).2.any (· ≠ .stored) = true := by
      simpa using hall
    have had : allDuplicate (c.insertAll ds).2 = true := by
      rw [allDuplicate, hany, hrefused]
      rfl
    rw [hany]
    simp [hall, BulkReply.verdict, had]

/-! ## Undisturbed commands -/

/-- The server answers, and refuses none of the first documents. -/
def WriteFault.Accepts (fault : WriteFault) (count : ℕ) : Prop :=
  fault.lost = false ∧ ∀ i < count, fault.refused i = false

theorem insertOne_ok_iff {d : ρ} :
    (insertOne c fault d).2 = .ok ↔
      fault.Accepts 1 ∧ fault.concern = false ∧ ¬ Blocked keys c.rows d := by
  have haccepts : fault.Accepts 1 ↔ fault.lost = false ∧ fault.refused 0 = false := by
    simp [WriteFault.Accepts]
  rw [haccepts, insertOne]
  rcases c.tryInsert_cases (fault.refused 0) d with ⟨hr, h⟩ | ⟨hr, hb, h⟩ | ⟨hr, hb, h⟩
  · rw [h]
    cases fault.lost <;> simp [hr]
  · rw [h]
    cases fault.lost <;> simp [hb]
  · rw [h]
    cases fault.lost <;> cases fault.concern <;> simp [hr, hb]

theorem mem_insertOne {d : ρ} (h : (insertOne c fault d).2 = .ok) :
    d ∈ (insertOne c fault d).1.rows := by
  rcases insertOne_cases c fault d with ⟨-, hfree, hins⟩ | ⟨hdup, -⟩ | ⟨hfailed, -⟩
  · rw [hins, Collection.rows_insert_of_not_blocked hfree]
    exact mem_append_right _ (mem_singleton_self d)
  · rw [h] at hdup
    cases hdup
  · rw [h] at hfailed
    cases hfailed

theorem any_not_stored_insertAll {ds : List ρ} :
    (c.insertAll ds).2.any (· ≠ .stored) = false ↔
      (∀ d ∈ ds, ¬ Blocked keys c.rows d) ∧ ds.Pairwise (fun a b => ¬ Conflict keys a b) := by
  have hstored : (c.insertAll ds).2.any (· ≠ .stored) = false ↔
      ∀ f ∈ (c.insertAll ds).2, f = .stored := by simp
  rw [hstored]
  constructor
  · intro h
    have hunique := (c.insertAll ds).1.unique
    rw [Collection.insertAll, Collection.rows_of_all_stored h] at hunique
    obtain ⟨-, hpairwise, hfree⟩ := pairwise_append.mp hunique
    refine ⟨?_, hpairwise⟩
    rintro d hd ⟨x, hx, hconflict⟩
    exact hfree x hx d hd hconflict
  · rintro ⟨hfree, hpairwise⟩
    exact Collection.all_stored (fun _ _ => rfl) hfree hpairwise

theorem insertBulk_verdict_iff {ds : List ρ} {dup : Bool} :
    (insertBulk c fault ds).2.verdict = some dup ↔
      fault.Accepts ds.length ∧ dup = (c.insertAll ds).2.any (· ≠ .stored) ∧
        (dup = false → fault.concern = false) := by
  constructor
  · intro h
    obtain ⟨heq, hdup⟩ := insertBulk_verdict h
    have hlost : fault.lost = false := by
      by_contra hlost
      rw [Bool.not_eq_false] at hlost
      simp [insertBulk, hlost, BulkReply.verdict] at h
    refine ⟨⟨hlost, fun i hi => ?_⟩, hdup, ?_⟩
    · by_contra hr
      rw [Bool.not_eq_false] at hr
      have hmem := Collection.mem_fates_of_refused (c := c) hi hr
      rw [heq] at hmem
      exact Collection.not_refused_mem_insertAll hmem
    · rintro rfl
      by_contra hconcern
      rw [Bool.not_eq_false] at hconcern
      simp [insertBulk, hlost, hconcern, BulkReply.verdict] at h
  · rintro ⟨⟨hlost, hrefused⟩, hdup, hconcern⟩
    have heq : c.insertMany fault.refused ds = c.insertAll ds :=
      Collection.insertMany_congr hrefused
    -- up to the write concern, which only matters when everything is stored, this is the
    -- undisturbed command
    have hreply : (insertBulk c fault ds).2 = (insertBulk c .none ds).2 := by
      have hnone : (insertBulk c .none ds).2 =
          if (c.insertAll ds).2.all (· = .stored) && true then .ok else .bulk (c.insertAll ds).2 :=
        rfl
      rw [hnone, insertBulk, heq, hlost]
      cases dup with
      | false =>
        rw [hconcern rfl]
        rfl
      | true =>
        have hall : (c.insertAll ds).2.all (· = .stored) = false := by simpa using hdup.symm
        rw [hall]
        rfl
    rw [hreply, insertBulk_none_verdict, ← hdup]

end DocumentStore
