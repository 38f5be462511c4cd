import Mathlib.Data.Nat.Init
import Mathlib.Logic.Function.Basic

/-! The numbers handed out by a counter, with the one place that holds each of them. -/

namespace TokenLedger

open Function

structure Ledger (α : Type*) where
  top : ℕ
  holder : ℕ → Option α
  bounded : ∀ n a, holder n = some a → 1 ≤ n ∧ n ≤ top

namespace Ledger

variable {α : Type*}

/-- The numbers up to `top` have been handed out and forgotten. -/
def forgotten (top : ℕ) : Ledger α where
  top := top
  holder := fun _ => none
  bounded := by simp

/-- Hand the next `count` numbers out to a holder. -/
def grant (l : Ledger α) (count : ℕ) (a : α) : Ledger α where
  top := l.top + count
  holder := fun n => if l.top < n ∧ n ≤ l.top + count then some a else l.holder n
  bounded := by
    intro n b h
    split at h
    · omega
    · have hb := l.bounded n b h
      omega

/-- Move numbers between holders. -/
def move (l : Ledger α) (f : ℕ → α → α) : Ledger α where
  top := l.top
  holder := fun n => (l.holder n).map (f n)
  bounded := by
    intro n b h
    obtain ⟨a, ha, _⟩ := Option.map_eq_some_iff.mp h
    exact l.bounded n a ha

@[simp] theorem top_grant (l : Ledger α) (count : ℕ) (a : α) :
    (l.grant count a).top = l.top + count := rfl

@[simp] theorem top_move (l : Ledger α) (f : ℕ → α → α) : (l.move f).top = l.top := rfl

variable {l : Ledger α}

theorem holder_grant_new {count n : ℕ} {a : α} (hlo : l.top < n) (hhi : n ≤ l.top + count) :
    (l.grant count a).holder n = some a :=
  if_pos ⟨hlo, hhi⟩

theorem holder_grant_old {count n : ℕ} {a b : α} (h : l.holder n = some b) :
    (l.grant count a).holder n = some b := by
  have hb := l.bounded n b h
  change (if _ then _ else _) = _
  rw [if_neg (by omega), h]

theorem holder_move {f : ℕ → α → α} {n : ℕ} {a : α} (h : l.holder n = some a) :
    (l.move f).holder n = some (f n a) := by
  simp [move, h]

end Ledger

variable {κ α : Type*} [DecidableEq κ]

/-- Hand numbers of one key out. -/
def grantAt (l : κ → Ledger α) (key : κ) (count : ℕ) (a : α) : κ → Ledger α :=
  update l key ((l key).grant count a)

/-- Move numbers of one key. -/
def moveAt (l : κ → Ledger α) (key : κ) (f : ℕ → α → α) : κ → Ledger α :=
  update l key ((l key).move f)

theorem top_grantAt (l : κ → Ledger α) (key : κ) (count : ℕ) (a : α) (k : κ) :
    (grantAt l key count a k).top = update (fun k => (l k).top) key ((l key).top + count) k := by
  by_cases h : k = key
  · subst k
    simp [grantAt]
  · simp [grantAt, update_of_ne h]

@[simp] theorem top_moveAt (l : κ → Ledger α) (key : κ) (f : ℕ → α → α) (k : κ) :
    (moveAt l key f k).top = (l k).top := by
  by_cases h : k = key
  · subst k
    simp [moveAt]
  · simp [moveAt, update_of_ne h]

variable {l : κ → Ledger α} {key : κ} {n : ℕ} {a : α}

theorem holder_grantAt_old {k : κ} {count : ℕ} {b : α} (h : (l k).holder n = some b) :
    (grantAt l key count a k).holder n = some b := by
  by_cases hk : k = key
  · subst k
    simpa [grantAt] using Ledger.holder_grant_old h
  · simpa [grantAt, update_of_ne hk] using h

theorem holder_grantAt_new {count : ℕ} (hlo : (l key).top < n) (hhi : n ≤ (l key).top + count) :
    (grantAt l key count a key).holder n = some a := by
  simpa [grantAt] using Ledger.holder_grant_new hlo hhi

theorem holder_moveAt_self {f : ℕ → α → α} (h : (l key).holder n = some a) :
    (moveAt l key f key).holder n = some (f n a) := by
  simpa [moveAt] using Ledger.holder_move h

theorem holder_moveAt_keep {k : κ} {f : ℕ → α → α} (h : (l k).holder n = some a)
    (hf : k = key → f n a = a) : (moveAt l key f k).holder n = some a := by
  by_cases hk : k = key
  · subst k
    rw [holder_moveAt_self h, hf rfl]
  · simpa [moveAt, update_of_ne hk] using h

end TokenLedger
