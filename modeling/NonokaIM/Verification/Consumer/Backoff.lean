import Mathlib.Algebra.Order.Ring.Int
import Mathlib.Data.Nat.Find
import NonokaIM.Model.RetryBackoff

/-! The waits between the attempts to handle a message. The product is capped after it is computed
in 64 bits, where it may be negative. -/

namespace NonokaIM

open RetryPolicy List

/-! ## One wait -/

theorem two_pow_pos (n : ℕ) : (0 : Int) < 2 ^ n := pow_pos (by omega) n

section

variable (p : RetryPolicy) {attempt : ℕ}

def exactWait (retryBackoff : Int) (attempt : ℕ) : Int :=
  min 5000000000 (retryBackoff * 2 ^ attempt)

theorem toInt_product (attempt : ℕ) :
    (p.retryBackoff * shiftedOne attempt).toInt =
      (p.retryBackoff.toInt * 2 ^ attempt).bmod (2 ^ 64) := by
  rw [Int64.toInt_mul, shiftedOne, Int64.toInt_ofNat']
  exact Int.mul_bmod_bmod

theorem toInt_backoff (attempt : ℕ) :
    (p.backoff attempt).toInt =
      min 5000000000 ((p.retryBackoff.toInt * 2 ^ attempt).bmod (2 ^ 64)) := by
  have hmax : maxBackoff.toInt = 5000000000 := by decide
  rw [← toInt_product, backoff]
  split
  · rename_i hlt
    rw [Int64.lt_iff_toInt_lt, hmax] at hlt
    rw [hmax]
    omega
  · rename_i hle
    rw [Int64.lt_iff_toInt_lt, hmax] at hle
    omega

variable {p}

theorem toInt_backoff_of_lt (hpos : 0 < p.retryBackoff.toInt)
    (hfits : p.retryBackoff.toInt * 2 ^ attempt < 2 ^ 63) :
    (p.backoff attempt).toInt = exactWait p.retryBackoff.toInt attempt := by
  have hprod : 0 < p.retryBackoff.toInt * 2 ^ attempt := Int.mul_pos hpos (two_pow_pos attempt)
  rw [toInt_backoff, exactWait, Int.bmod_def]
  omega

theorem toInt_backoff_of_overflow (hlow : 2 ^ 63 ≤ p.retryBackoff.toInt * 2 ^ attempt)
    (hhigh : p.retryBackoff.toInt * 2 ^ attempt < 2 ^ 64) : (p.backoff attempt).toInt < 0 := by
  rw [toInt_backoff, Int.bmod_def]
  omega

theorem exactWait_pos {b : Int} (hb : 0 < b) (attempt : ℕ) : 0 < exactWait b attempt := by
  have hprod : 0 < b * 2 ^ attempt := Int.mul_pos hb (two_pow_pos attempt)
  unfold exactWait
  omega

theorem exactWait_mono {b : Int} (hb : 0 < b) {i j : ℕ} (hij : i ≤ j) :
    exactWait b i ≤ exactWait b j := by
  have hpow : (2 : Int) ^ i ≤ 2 ^ j := pow_le_pow_right₀ (by omega) hij
  have hprod := Int.mul_le_mul_of_nonneg_left hpow hb.le
  unfold exactWait
  omega

theorem exists_overflow {b : Int} (hb : b < 2 ^ 63) {n : ℕ} (h : 2 ^ 63 ≤ b * 2 ^ n) :
    ∃ k ≤ n, 2 ^ 63 ≤ b * 2 ^ k ∧ b * 2 ^ k < 2 ^ 64 := by
  have hex : ∃ k, 2 ^ 63 ≤ b * 2 ^ k := ⟨n, h⟩
  refine ⟨Nat.find hex, Nat.find_min' hex h, Nat.find_spec hex, ?_⟩
  cases hk : Nat.find hex with
  | zero => omega
  | succ k =>
    have hbefore : ¬ 2 ^ 63 ≤ b * 2 ^ k := Nat.find_min hex (by omega)
    rw [pow_succ, ← mul_assoc]
    omega

end

section

variable (p : RetryPolicy)

def waitsOf (first count : ℕ) : List (ℕ × Int64) :=
  (range' first count).map fun attempt => (attempt, p.backoff attempt)

variable {p}

theorem retryLoop_waits (env : HandlerEnv) (left attempt : ℕ) (lastErr : Option String) :
    ∃ count, (p.retryLoop env left attempt lastErr).2 = waitsOf p attempt count ∧
      (0 < count → attempt + count ≤ p.maxRetries.toInt) := by
  induction left generalizing attempt lastErr with
  | zero => exact ⟨0, rfl, fun h => absurd h (Nat.lt_irrefl 0)⟩
  | succ left ih =>
    rw [retryLoop]
    cases env.result attempt with
    | ok _ => exact ⟨0, rfl, fun h => absurd h (Nat.lt_irrefl 0)⟩
    | error e =>
      dsimp only
      obtain ⟨count, hwaits, hcount⟩ := ih (attempt + 1) (some e)
      split
      · split
        · exact ⟨1, rfl, fun _ => by omega⟩
        refine ⟨count + 1, ?_, ?_⟩
        · rw [hwaits]
          rfl
        · intro _
          rcases Nat.eq_zero_or_pos count with rfl | hpos
          · omega
          · have := hcount hpos
            omega
      · refine ⟨0, ?_, fun h => absurd h (Nat.lt_irrefl 0)⟩
        have hzero : count = 0 := by
          by_contra hne
          have := hcount (Nat.pos_of_ne_zero hne)
          omega
        rw [hwaits, hzero]
        rfl

/-- A handler that always fails, without an interruption. -/
def alwaysFails : HandlerEnv where
  result := fun _ => .error ""

theorem mem_retryLoop_waits {left attempt k : ℕ} (hk : attempt ≤ k) (hleft : k < attempt + left)
    (hretry : (k : Int) < p.maxRetries.toInt) (lastErr : Option String) :
    (k, p.backoff k) ∈ (p.retryLoop alwaysFails left attempt lastErr).2 := by
  induction left generalizing attempt lastErr with
  | zero => omega
  | succ left ih =>
    rw [retryLoop]
    simp only [alwaysFails, Bool.false_eq_true, if_false]
    rw [if_pos (by omega : (attempt : Int) < p.maxRetries.toInt)]
    by_cases heq : k = attempt
    · subst k
      exact mem_cons_self
    · exact mem_cons_of_mem _ (ih (by omega) (by omega) _)

end

/-! ## Bounded waits -/

/-- Each wait is the minimum of the cap and the product over the mathematical integers, positive,
and not shorter than the one before. -/
def BoundedWaits (retryBackoff : Int) (waits : List (ℕ × Int64)) : Prop :=
  (∀ w ∈ waits, w.2.toInt = exactWait retryBackoff w.1) ∧
    (∀ w ∈ waits, 0 < w.2.toInt) ∧
    waits.Pairwise fun v w => v.2.toInt ≤ w.2.toInt

section

variable {p : RetryPolicy}

theorem boundedWaits_waitsOf (hpos : 0 < p.retryBackoff.toInt) {count : ℕ}
    (h : ∀ k < count, p.retryBackoff.toInt * 2 ^ k < 2 ^ 63) :
    BoundedWaits p.retryBackoff.toInt (waitsOf p 0 count) := by
  have hexact : ∀ w ∈ waitsOf p 0 count, w.2.toInt = exactWait p.retryBackoff.toInt w.1 := by
    intro w hw
    obtain ⟨k, hk, rfl⟩ := mem_map.mp hw
    exact toInt_backoff_of_lt hpos (h k (by simpa using hk))
  refine ⟨hexact, fun w hw => ?_, ?_⟩
  · rw [hexact w hw]
    exact exactWait_pos hpos w.1
  · have hsorted : (waitsOf p 0 count).Pairwise fun v w => v.1 ≤ w.1 := by
      rw [waitsOf, pairwise_map]
      exact Pairwise.imp Nat.le_of_lt pairwise_lt_range'
    refine hsorted.imp_of_mem fun {v w} hv hw hvw => ?_
    rw [hexact v hv, hexact w hw]
    exact exactWait_mono hpos hvw

theorem toInt_attempts (hretries : 0 ≤ p.maxRetries.toInt) :
    p.attempts.toInt.toNat =
      if p.maxRetries.toInt = 2 ^ 63 - 1 then 0 else p.maxRetries.toInt.toNat + 1 := by
  have hlt := Int64.toInt_lt p.maxRetries
  have hone : (1 : Int64).toInt = 1 := rfl
  have hsum : p.attempts.toInt = (p.maxRetries.toInt + 1).bmod (2 ^ 64) := by
    rw [attempts, Int64.toInt_add, hone]
  rw [Int.bmod_def] at hsum
  split
  · omega
  · omega

theorem bounded_iff (hpos : 0 < p.retryBackoff.toInt) (hretries : 0 ≤ p.maxRetries.toInt) :
    (∀ env, BoundedWaits p.retryBackoff.toInt (p.waits env)) ↔
      p.maxRetries.toInt = 0 ∨ p.maxRetries.toInt = 2 ^ 63 - 1 ∨
        p.retryBackoff.toInt * 2 ^ (p.maxRetries.toInt.toNat - 1) < 2 ^ 63 := by
  have hbound := toInt_attempts hretries
  constructor
  · intro h
    by_contra hcond
    simp only [not_or, Int.not_lt] at hcond
    obtain ⟨hzero, hlargest, hover⟩ := hcond
    obtain ⟨k, hk, hlow, hhigh⟩ := exists_overflow (Int64.toInt_lt p.retryBackoff) hover
    -- the attempt is reached when the handler always fails
    have hmem : (k, p.backoff k) ∈ p.waits alwaysFails := by
      refine mem_retryLoop_waits (Nat.zero_le k) ?_ (by omega) none
      rw [hbound, if_neg hlargest]
      omega
    have hwait := (h alwaysFails).2.1 _ hmem
    exact absurd hwait (Int.not_lt.mpr (toInt_backoff_of_overflow hlow hhigh).le)
  · intro hcond env
    rw [waits, retry, hbound]
    by_cases hlargest : p.maxRetries.toInt = 2 ^ 63 - 1
    · rw [if_pos hlargest]
      exact boundedWaits_waitsOf hpos fun k hk => absurd hk (Nat.not_lt_zero k)
    · obtain ⟨count, hwaits, hcount⟩ := retryLoop_waits (p := p) env
        (if p.maxRetries.toInt = 2 ^ 63 - 1 then 0 else p.maxRetries.toInt.toNat + 1) 0 none
      rw [hwaits]
      refine boundedWaits_waitsOf hpos fun k hk => ?_
      have hle := hcount (Nat.zero_lt_of_lt hk)
      have hfits := (hcond.resolve_left (by omega)).resolve_left hlargest
      have hpow : (2 : Int) ^ k ≤ 2 ^ (p.maxRetries.toInt.toNat - 1) :=
        pow_le_pow_right₀ (by omega) (by omega)
      exact (Int.mul_le_mul_of_nonneg_left hpow hpos.le).trans_lt hfits

end

/-- The waits are bounded, whatever the handler does, exactly if there is no retry, or the base
times two to the last attempt before a retry fits into 64 bits. With the largest number of retries
the bound of the loop is negative, and there is no attempt at all. -/
theorem backoff_bounded_iff (maxRetries retryBackoff : Int64) (hpos : 0 < retryBackoff) :
    (∀ env, BoundedWaits retryBackoff.toInt ((newRetryPolicy maxRetries retryBackoff).waits env)) ↔
      maxRetries ≤ 0 ∨ maxRetries.toInt = 2 ^ 63 - 1 ∨
        retryBackoff.toInt * 2 ^ (maxRetries.toInt.toNat - 1) < 2 ^ 63 := by
  have hzero : (0 : Int64).toInt = 0 := rfl
  have hback : (newRetryPolicy maxRetries retryBackoff).retryBackoff = retryBackoff :=
    if_neg (Int64.not_le.mpr hpos)
  have hpos' : 0 < retryBackoff.toInt := by rwa [Int64.lt_iff_toInt_lt, hzero] at hpos
  have hle : maxRetries ≤ 0 ↔ maxRetries.toInt ≤ 0 := by rw [Int64.le_iff_toInt_le, hzero]
  have hmax : (newRetryPolicy maxRetries retryBackoff).maxRetries.toInt =
      max maxRetries.toInt 0 := by
    change (if maxRetries < 0 then 0 else maxRetries).toInt = _
    split
    · rename_i hneg
      rw [Int64.lt_iff_toInt_lt, hzero] at hneg
      omega
    · rename_i hnonneg
      rw [Int64.lt_iff_toInt_lt, hzero] at hnonneg
      omega
  have h := bounded_iff (p := newRetryPolicy maxRetries retryBackoff) (by rwa [hback]) (by omega)
  rw [hback, hmax] at h
  rw [h, hle]
  have hzero' : max maxRetries.toInt 0 = 0 ↔ maxRetries.toInt ≤ 0 := by omega
  have hlargest : max maxRetries.toInt 0 = 2 ^ 63 - 1 ↔ maxRetries.toInt = 2 ^ 63 - 1 := by omega
  have hnat : (max maxRetries.toInt 0).toNat = maxRetries.toInt.toNat := by omega
  rw [hzero', hlargest, hnat]

/-- Two retries after 500 ms, as the agent worker is configured by default. -/
theorem agent_backoff_bounded :
    (0 : Int64) < 500000000 ∧
      ∀ env, BoundedWaits 500000000 ((newRetryPolicy 2 500000000).waits env) :=
  ⟨by decide, (backoff_bounded_iff 2 500000000 (by decide)).mpr (.inr (.inr (by decide)))⟩

/-- With the default base, the wait after the 38th attempt is negative. -/
theorem negative_backoff :
    (37, (-4702848726509551616 : Int64)) ∈ (newRetryPolicy 38 100000000).waits alwaysFails := by
  decide

/-- How the attempts of `Model.Consumer` end, in the words of the loop. -/
def Attempts.toRetryEnd : Attempts → RetryEnd
  | .handled => .handled
  | .interrupted => .interrupted
  | .exhausted e => .exhausted (some e)

theorem retryLoop_eq_tryHandler {p : RetryPolicy} (env : HandlerEnv) (left attempt : ℕ)
    (lastErr : Option String) (h : (attempt : Int) + left = p.maxRetries.toInt) :
    (p.retryLoop env (left + 1) attempt lastErr).1 = (tryHandler env attempt left).toRetryEnd := by
  induction left generalizing attempt lastErr with
  | zero =>
    rw [retryLoop, tryHandler]
    cases env.result attempt with
    | ok _ => rfl
    | error e =>
      dsimp only
      rw [if_neg (by omega)]
      rfl
  | succ left ih =>
    rw [retryLoop, tryHandler]
    cases env.result attempt with
    | ok _ => rfl
    | error e =>
      dsimp only
      rw [if_pos (by omega)]
      split
      · rfl
      · exact ih (attempt + 1) (some e) (by omega)

theorem retry_eq_tryHandler {p : RetryPolicy} (hretries : 0 ≤ p.maxRetries.toInt)
    (hlargest : p.maxRetries.toInt ≠ 2 ^ 63 - 1) (env : HandlerEnv) :
    (p.retry env).1 = (tryHandler env 0 p.maxRetries.toInt.toNat).toRetryEnd := by
  rw [retry, toInt_attempts hretries, if_neg hlargest]
  exact retryLoop_eq_tryHandler env _ 0 none (by omega)

theorem two_retries_as_counted :
    ((newRetryPolicy 2 500000000).retry alwaysFails).1 =
      (tryHandler alwaysFails 0 2).toRetryEnd :=
  retry_eq_tryHandler (by decide) (by decide) alwaysFails

end NonokaIM
