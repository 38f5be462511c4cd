import Mathlib.Data.Nat.Init

/-! Bytes as text in base 64, with and without padding. -/

namespace Base64

open List

/-- The digit for the six lowest bits of a number. -/
def digit (n : ℕ) : Char :=
  if n % 64 < 26 then Char.ofNat (65 + n % 64)
  else if n % 64 < 52 then Char.ofNat (71 + n % 64)
  else if n % 64 < 62 then Char.ofNat (n % 64 - 4)
  else if n % 64 = 62 then '+'
  else '/'

def value (c : Char) : Option ℕ :=
  if 'A' ≤ c ∧ c ≤ 'Z' then some (c.toNat - 65)
  else if 'a' ≤ c ∧ c ≤ 'z' then some (c.toNat - 71)
  else if '0' ≤ c ∧ c ≤ '9' then some (c.toNat + 4)
  else if c = '+' then some 62
  else if c = '/' then some 63
  else none

/-- Three bytes are four digits; what is left at the end is padded. -/
def encode : List UInt8 → List Char
  | [] => []
  | [a] => [digit (a.toNat / 4), digit (a.toNat * 16), '=', '=']
  | [a, b] => [digit (a.toNat / 4), digit (a.toNat * 16 + b.toNat / 16), digit (b.toNat * 4), '=']
  | a :: b :: c :: rest =>
    digit (a.toNat / 4) :: digit (a.toNat * 16 + b.toNat / 16) ::
      digit (b.toNat * 4 + c.toNat / 64) :: digit c.toNat :: encode rest

/-- The bytes of up to three digits before the padding. -/
def first (x y : ℕ) : UInt8 := UInt8.ofNat (x * 4 + y / 16)
def second (y z : ℕ) : UInt8 := UInt8.ofNat (y * 16 + z / 4)
def third (z w : ℕ) : UInt8 := UInt8.ofNat (z * 64 + w)

def decode : List Char → Option (List UInt8)
  | [] => some []
  | a :: b :: c :: d :: rest =>
    match value a, value b, value c, value d with
    | some x, some y, some z, some w =>
      (decode rest).map fun bytes => first x y :: second y z :: third z w :: bytes
    | some x, some y, some z, none =>
      if d = '=' ∧ rest = [] then some [first x y, second y z] else none
    | some x, some y, none, none =>
      if c = '=' ∧ d = '=' ∧ rest = [] then some [first x y] else none
    | _, _, _, _ => none
  | _ => none

/-- Digits without padding; the padding that is missing completes them. -/
def decodeRaw (digits : List Char) : Option (List UInt8) :=
  if '=' ∈ digits then none
  else decode (digits ++ replicate ((4 - digits.length % 4) % 4) '=')

@[simp] theorem value_digit (n : ℕ) : value (digit n) = some (n % 64) := by
  have hall : ∀ k : Fin 64, value (digit k) = some (k : ℕ) := by decide
  have hk := hall ⟨n % 64, Nat.mod_lt _ (by omega)⟩
  simpa [digit] using hk

@[simp] theorem value_pad : value '=' = none := by decide

theorem ofNat_eq {n : ℕ} {a : UInt8} (h : n % 256 = a.toNat) : UInt8.ofNat n = a := by
  apply UInt8.toNat_inj.mp
  rw [UInt8.toNat_ofNat']
  exact h

section

variable (a b c : UInt8)

theorem first_digits : first (a.toNat / 4 % 64) ((a.toNat * 16 + b.toNat / 16) % 64) = a := by
  apply ofNat_eq
  have ha := a.toNat_lt
  have hb := b.toNat_lt
  omega

theorem first_last : first (a.toNat / 4 % 64) (a.toNat * 16 % 64) = a := by
  apply ofNat_eq
  have ha := a.toNat_lt
  omega

theorem second_digits :
    second ((a.toNat * 16 + b.toNat / 16) % 64) ((b.toNat * 4 + c.toNat / 64) % 64) = b := by
  apply ofNat_eq
  have hb := b.toNat_lt
  have hc := c.toNat_lt
  omega

theorem second_last : second ((a.toNat * 16 + b.toNat / 16) % 64) (b.toNat * 4 % 64) = b := by
  apply ofNat_eq
  have hb := b.toNat_lt
  omega

theorem third_digits : third ((b.toNat * 4 + c.toNat / 64) % 64) (c.toNat % 64) = c := by
  apply ofNat_eq
  have hc := c.toNat_lt
  omega

end

theorem decode_encode (bytes : List UInt8) : decode (encode bytes) = some bytes := by
  fun_induction encode bytes with
  | case1 => rfl
  | case2 a => simp [decode, first_last]
  | case3 a b => simp [decode, first_digits, second_last]
  | case4 a b c rest ih =>
    simp [decode, ih, first_digits, second_digits, third_digits]

theorem ne_pad {c : Char} {n : ℕ} (h : value c = some n) : c ≠ '=' := by
  rintro rfl
  cases value_pad ▸ h

theorem length_decode_le {text : List Char} {bytes : List UInt8} (h : decode text = some bytes) :
    4 * bytes.length ≤ 3 * text.countP (· != '=') := by
  fun_induction decode text generalizing bytes with
  | case1 =>
    cases h
    simp
  | case2 a b c d rest x y z w ha hb hc hd ih =>
    obtain ⟨tail, htail, rfl⟩ := Option.map_eq_some_iff.mp h
    have hle := ih htail
    simp only [countP_cons, bne_iff_ne, ne_eq, ne_pad ha, ne_pad hb, ne_pad hc, ne_pad hd,
      not_false_eq_true, if_true, length_cons]
    omega
  | case3 a b c d rest hd x y z ha hb hc hpad =>
    cases h
    simp only [countP_cons, bne_iff_ne, ne_eq, ne_pad ha, ne_pad hb, ne_pad hc,
      not_false_eq_true, if_true, length_cons, length_nil]
    omega
  | case5 a b c d rest hd hc x y ha hb hpad =>
    cases h
    simp only [countP_cons, bne_iff_ne, ne_eq, ne_pad ha, ne_pad hb,
      not_false_eq_true, if_true, length_cons, length_nil]
    omega
  | _ => cases h

theorem length_decodeRaw_le {digits : List Char} {bytes : List UInt8}
    (h : decodeRaw digits = some bytes) : 4 * bytes.length ≤ 3 * digits.length := by
  unfold decodeRaw at h
  split at h
  · cases h
  have hbytes := length_decode_le h
  have hpad (n : ℕ) : (replicate n '=').countP (· != '=') = 0 := by simp
  have hdigits : digits.countP (· != '=') ≤ digits.length := countP_le_length
  rw [countP_append, hpad] at hbytes
  omega

end Base64
