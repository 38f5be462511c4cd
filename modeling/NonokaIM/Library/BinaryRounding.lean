import Mathlib.Algebra.Order.Ring.Int
import Mathlib.Data.Nat.Log

/-! Rounding integers to a number of significant bits: to the nearest, and from the middle to the
one with an even significand. -/

namespace BinaryRounding

/-- A natural number with `p` significant bits. -/
def roundNat (p n : ℕ) : ℕ :=
  let unit := 2 ^ (n.log2 + 1 - p)
  let m := n / unit
  let rest := n % unit
  if 2 * rest < unit ∨ 2 * rest = unit ∧ m % 2 = 0 then m * unit else (m + 1) * unit

def roundInt (p : ℕ) (n : ℤ) : ℤ := n.sign * roundNat p n.natAbs

end BinaryRounding
