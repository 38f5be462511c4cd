import Mathlib.Algebra.Group.Nat.Defs
import NonokaIM.Library.FlatJson

/-! Texts as Go's verb `%q` writes them, read as JSON, which knows `\u` but not `\x` and `\U`. What
is printable is a parameter. -/

namespace QuotedText

open FlatJson List

variable (isPrint : Char → Bool)

/-- The escapes of two characters for what is not printable. -/
def controlEscape : Char → Option Char
  | '\x07' => some 'a'
  | '\x08' => some 'b'
  | '\x0c' => some 'f'
  | '\n' => some 'n'
  | '\r' => some 'r'
  | '\t' => some 't'
  | '\x0b' => some 'v'
  | _ => none

/-- The last `digits` hexadecimal digits of a code. -/
def hexDigits (code : ℕ) : ℕ → List Char
  | 0 => []
  | digits + 1 => hexDigit (code / 16 ^ digits) :: hexDigits code digits

def quoteChar (c : Char) : List Char :=
  if c = '"' ∨ c = '\\' then ['\\', c]
  else if isPrint c then [c]
  else
    match controlEscape c with
    | some e => ['\\', e]
    | none =>
      if c.toNat < 32 ∨ c.toNat = 0x7f then '\\' :: 'x' :: hexDigits c.toNat 2
      else if c.toNat < 0x10000 then '\\' :: 'u' :: hexDigits c.toNat 4
      else '\\' :: 'U' :: hexDigits c.toNat 8

def quote (text : List Char) : List Char := '"' :: (text.flatMap (quoteChar isPrint) ++ ['"'])

/-- The character is written in a way that JSON knows. -/
def Readable (c : Char) : Prop :=
  c = '"' ∨ c = '\\' ∨
    if isPrint c = true then 32 ≤ c.toNat
    else c ∈ ['\x08', '\x0c', '\n', '\r', '\t'] ∨
      32 ≤ c.toNat ∧ c.toNat ≠ 0x7f ∧ c.toNat < 0x10000
  deriving Decidable

/-- All characters of a text are. -/
def AllReadable (text : List Char) : Prop := ∀ c ∈ text, Readable isPrint c

instance (text : List Char) : Decidable (AllReadable isPrint text) :=
  decidableBAll _ text

variable {isPrint} {c : Char}

theorem readText_hexDigits (h : c.toNat < 0x10000) (rest : List Char) :
    readText ('\\' :: 'u' :: hexDigits c.toNat 4 ++ rest) =
      consText (some c) (readText rest) := by
  have hcode := ofCode_hexDigits h
  simp only [hexDigits, cons_append, nil_append, readText, Nat.reducePow, Nat.div_one, hcode]

theorem readText_plain (hquote : c ≠ '"') (hslash : c ≠ '\\') (rest : List Char) :
    readText (c :: rest) =
      if c.toNat < 32 then none else consText (some c) (readText rest) := by
  simp [readText, hslash]

theorem readText_unknown_escape {e : Char} (h : shortUnescape e = none) (hu : e ≠ 'u')
    (rest : List Char) : readText ('\\' :: e :: rest) = none := by
  rw [readText]
  · rw [h, consText]
    simp
  · rintro a b c d tail rfl
    exact absurd rfl hu

theorem readText_controlEscape {e : Char} (hprint : isPrint c = false)
    (h : controlEscape c = some e) (rest : List Char) :
    readText ('\\' :: e :: rest) =
      if Readable isPrint c then consText (some c) (readText rest) else none := by
  unfold controlEscape at h
  split at h <;> cases h <;> simp [Readable, hprint, readText, shortUnescape, consText]

theorem readText_quoteChar (c : Char) (rest : List Char) :
    readText (quoteChar isPrint c ++ rest) =
      if Readable isPrint c then consText (some c) (readText rest) else none := by
  unfold quoteChar
  split
  · rename_i hquote
    rcases hquote with rfl | rfl <;> simp [Readable, readText, shortUnescape]
  · rename_i hquote
    obtain ⟨hne, hslash⟩ := not_or.mp hquote
    split
    · rename_i hprint
      have hreadable : Readable isPrint c ↔ 32 ≤ c.toNat := by
        simp [Readable, hne, hslash, hprint]
      rw [singleton_append, readText_plain hne hslash]
      split
      · rw [if_neg (by rw [hreadable]; omega)]
      · rw [if_pos (by rw [hreadable]; omega)]
    · rename_i hprint
      cases hshort : controlEscape c with
      | some e =>
        exact readText_controlEscape (by simpa using hprint) hshort rest
      | none =>
        have hcontrol : c ∉ ['\x08', '\x0c', '\n', '\r', '\t'] := by
          intro hmem
          simp only [mem_cons, not_mem_nil, or_false] at hmem
          rcases hmem with rfl | rfl | rfl | rfl | rfl <;> cases hshort
        have hreadable : Readable isPrint c ↔
            32 ≤ c.toNat ∧ c.toNat ≠ 0x7f ∧ c.toNat < 0x10000 := by
          rw [Readable, if_neg hprint]
          simp only [hne, hslash, hcontrol, false_or]
        by_cases hcode : c.toNat < 32 ∨ c.toNat = 0x7f
        · rw [if_pos hcode, if_neg (by rw [hreadable]; omega)]
          exact readText_unknown_escape rfl (by decide) _
        · rw [if_neg hcode]
          by_cases hsmall : c.toNat < 0x10000
          · rw [if_pos hsmall, if_pos (by rw [hreadable]; omega)]
            exact readText_hexDigits hsmall rest
          · rw [if_neg hsmall, if_neg (by rw [hreadable]; omega)]
            exact readText_unknown_escape rfl (by decide) _

theorem readText_quote (text rest : List Char) :
    readText (text.flatMap (quoteChar isPrint) ++ '"' :: rest) =
      if AllReadable isPrint text then some (text, rest) else none := by
  induction text with
  | nil => simp [readText, AllReadable]
  | cons c text ih =>
    have hcons : AllReadable isPrint (c :: text) ↔
        Readable isPrint c ∧ AllReadable isPrint text := forall_mem_cons
    rw [flatMap_cons, append_assoc, readText_quoteChar, ih]
    by_cases hc : Readable isPrint c
    · by_cases htext : AllReadable isPrint text
      · rw [if_pos hc, if_pos htext, if_pos (hcons.mpr ⟨hc, htext⟩), consText]
      · rw [if_pos hc, if_neg htext, if_neg fun h => htext (hcons.mp h).2]
        rfl
    · rw [if_neg hc, if_neg fun h => hc (hcons.mp h).1]

theorem readValue_quote (text rest : List Char) :
    readValue (quote isPrint text ++ rest) =
      if AllReadable isPrint text then some (.text text, rest) else none := by
  rw [quote, cons_append, append_assoc, singleton_append, readValue,
    List.head?_cons, if_pos rfl, tail_cons, readText_quote]
  split <;> rfl

/-- A field whose name needs no escapes. -/
def fieldText (name value : List Char) : List Char := '"' :: (name ++ '"' :: ':' :: value)

theorem readField_fieldText {name : List Char} (h : name.flatMap escape = name)
    (value rest : List Char) :
    readField (fieldText name value ++ rest) =
      (readValue (value ++ rest)).map fun x => ((name, x.1), x.2) := by
  have hname : readText (name ++ '"' :: ':' :: (value ++ rest)) =
      some (name, ':' :: (value ++ rest)) := by
    have hread := readText_flatMap_escape name (':' :: (value ++ rest))
    rwa [h] at hread
  rw [fieldText, cons_append, append_assoc, readField, head?_cons, if_pos rfl,
    tail_cons, cons_append, cons_append]
  simp only [hname]

theorem readField_quote {name : List Char} (h : name.flatMap escape = name)
    (text rest : List Char) :
    readField (fieldText name (quote isPrint text) ++ rest) =
      if AllReadable isPrint text then some ((name, .text text), rest) else none := by
  rw [readField_fieldText h, readValue_quote]
  split <;> rfl

theorem readFields_cons {fuel : ℕ} {field : List Char} {f : Field} {rest : List Char}
    (h : readField (field ++ ',' :: rest) = some (f, ',' :: rest)) :
    readFields (fuel + 1) (field ++ ',' :: rest) = (readFields fuel rest).map (f :: ·) := by
  simp only [readFields, h]

theorem readFields_last {fuel : ℕ} {field : List Char} {f : Field}
    (h : readField (field ++ ['}']) = some (f, ['}'])) :
    readFields (fuel + 1) (field ++ ['}']) = some [f] := by
  simp only [readFields, h]

theorem readFields_none {fuel : ℕ} {cs : List Char} (h : readField cs = none) :
    readFields fuel cs = none := by
  cases fuel with
  | zero => rfl
  | succ fuel => rw [readFields, h]

end QuotedText
