import Mathlib.Data.List.Basic

/-! Percent-encoding of byte strings: some bytes stand for themselves, every other byte is written
as a percent sign and two hexadecimal digits. -/

namespace PercentEncoding

open List

def percent : UInt8 := 0x25

/-- The digit of a number below 16, in upper case. -/
def hexDigit (n : ℕ) : UInt8 := if n < 10 then UInt8.ofNat (0x30 + n) else UInt8.ofNat (0x37 + n)

def isUpperHex (c : UInt8) : Bool := (0x30 ≤ c && c ≤ 0x39) || (0x41 ≤ c && c ≤ 0x46)

/-- Digits are read in both cases. -/
def hexValue (c : UInt8) : Option ℕ :=
  if 0x30 ≤ c && c ≤ 0x39 then some (c.toNat - 0x30)
  else if 0x41 ≤ c && c ≤ 0x46 then some (c.toNat - 0x37)
  else if 0x61 ≤ c && c ≤ 0x66 then some (c.toNat - 0x57)
  else none

theorem hexValue_hexDigit : ∀ n < 16, hexValue (hexDigit n) = some n := by
  decide

/-- What a percent sign in front of two digits stands for. -/
def byteOf (hi lo : UInt8) : Option UInt8 := do
  let h ← hexValue hi
  let l ← hexValue lo
  return UInt8.ofNat (16 * h + l)

/-- A percent sign that is not in front of two digits is an error. -/
def decode : List UInt8 → Option (List UInt8)
  | [] => some []
  | c :: rest =>
    if c = percent then
      match rest with
      | hi :: lo :: rest => (byteOf hi lo).bind fun b => (decode rest).map (b :: ·)
      | _ => none
    else (decode rest).map (c :: ·)

theorem decode_of_ne {c : UInt8} (hc : c ≠ percent) (rest : List UInt8) :
    decode (c :: rest) = (decode rest).map (c :: ·) := by
  rw [decode.eq_def]
  exact if_neg hc

theorem decode_percent (hi lo : UInt8) (rest : List UInt8) :
    decode (percent :: hi :: lo :: rest) =
      (byteOf hi lo).bind fun b => (decode rest).map (b :: ·) := by
  rw [decode.eq_def]
  exact if_pos rfl

theorem byteOf_digits (b : UInt8) :
    byteOf (hexDigit (b.toNat / 16)) (hexDigit (b.toNat % 16)) = some b := by
  have hlt : b.toNat < 256 := b.toNat_lt
  have hhi := hexValue_hexDigit (b.toNat / 16) (by omega)
  have hlo := hexValue_hexDigit (b.toNat % 16) (Nat.mod_lt _ (by omega))
  have hsum : 16 * (b.toNat / 16) + b.toNat % 16 = b.toNat := Nat.div_add_mod b.toNat 16
  simp only [byteOf, hhi, hlo, hsum, Option.bind_eq_bind, Option.bind_some, Option.pure_def,
    UInt8.ofNat_toNat]

section

variable (plain : UInt8 → Bool)

def encodeByte (b : UInt8) : List UInt8 :=
  if plain b then [b] else [percent, hexDigit (b.toNat / 16), hexDigit (b.toNat % 16)]

def encode (bytes : List UInt8) : List UInt8 := bytes.flatMap (encodeByte plain)

/-- Texts made of plain bytes, and percent signs with two upper-case digits behind each. -/
inductive Escaped : List UInt8 → Prop where
  | nil : Escaped []
  | plain {c : UInt8} {rest : List UInt8} : plain c = true → Escaped rest → Escaped (c :: rest)
  | digits {hi lo : UInt8} {rest : List UInt8} : isUpperHex hi = true → isUpperHex lo = true →
      Escaped rest → Escaped (percent :: hi :: lo :: rest)

variable {plain}

theorem Escaped.not_mem {text : List UInt8} (h : Escaped plain text) {c : UInt8}
    (hplain : plain c = false) (hpercent : c ≠ percent) (hhex : isUpperHex c = false) :
    c ∉ text := by
  induction h with
  | nil => exact not_mem_nil
  | @plain d rest hd _ ih =>
    have hne : c ≠ d := by
      rintro rfl
      rw [hplain] at hd
      cases hd
    exact fun hmem => (mem_cons.mp hmem).elim hne ih
  | @digits hi lo rest hhi hlo _ ih =>
    have hne : ∀ d, isUpperHex d = true → c ≠ d := by
      rintro d hd rfl
      rw [hhex] at hd
      cases hd
    intro hmem
    simp only [mem_cons] at hmem
    rcases hmem with hc | hc | hc | hc
    · exact hpercent hc
    · exact hne hi hhi hc
    · exact hne lo hlo hc
    · exact ih hc

variable (hpercent : plain percent = false)

include hpercent

theorem decode_encodeByte (b : UInt8) (rest : List UInt8) :
    decode (encodeByte plain b ++ rest) = (decode rest).map (b :: ·) := by
  unfold encodeByte
  split
  · rename_i hb
    have hne : b ≠ percent := by
      rintro rfl
      rw [hpercent] at hb
      cases hb
    exact decode_of_ne hne rest
  · simp only [cons_append, nil_append, decode_percent, byteOf_digits, Option.bind_some]

/-- Every byte string is read back, as long as the percent sign does not stand for itself. -/
theorem decode_encode (bytes : List UInt8) : decode (encode plain bytes) = some bytes := by
  induction bytes with
  | nil => rfl
  | cons b bytes ih =>
    rw [encode, flatMap_cons, decode_encodeByte hpercent]
    change (decode (encode plain bytes)).map _ = _
    rw [ih]
    rfl

end

end PercentEncoding
