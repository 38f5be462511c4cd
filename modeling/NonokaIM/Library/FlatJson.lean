import Mathlib.Data.Nat.Init

/-! Flat JSON objects of numbers, texts and nulls, without white space and with the characters
escaped that Go's encoder escapes. Reading undoes writing. -/

namespace FlatJson

open List Option

inductive Value where
  | null
  | int (n : ℤ)
  | text (s : List Char)

abbrev Field := List Char × Value

/-! ## Texts -/

def hexDigit (n : ℕ) : Char := (Nat.digitChar (n % 16))

def hexValue (c : Char) : Option ℕ :=
  if '0' ≤ c ∧ c ≤ '9' then some (c.toNat - 48)
  else if 'a' ≤ c ∧ c ≤ 'f' then some (c.toNat - 87)
  else if 'A' ≤ c ∧ c ≤ 'F' then some (c.toNat - 55)
  else none

/-- The escapes of two characters, by their second one. -/
def shortEscape : Char → Option Char
  | '"' => some '"'
  | '\\' => some '\\'
  | '\x08' => some 'b'
  | '\x0c' => some 'f'
  | '\n' => some 'n'
  | '\r' => some 'r'
  | '\t' => some 't'
  | _ => none

def shortUnescape : Char → Option Char
  | '"' => some '"'
  | '\\' => some '\\'
  | '/' => some '/'
  | 'b' => some '\x08'
  | 'f' => some '\x0c'
  | 'n' => some '\n'
  | 'r' => some '\r'
  | 't' => some '\t'
  | _ => none

/-- Characters that are written as `\u` and four digits. -/
def NeedsCode (c : Char) : Prop :=
  c.toNat < 32 ∨ c = '<' ∨ c = '>' ∨ c = '&' ∨ c.toNat = 0x2028 ∨ c.toNat = 0x2029
  deriving Decidable

def escape (c : Char) : List Char :=
  match shortEscape c with
  | some e => ['\\', e]
  | none =>
    if NeedsCode c then
      ['\\', 'u', hexDigit (c.toNat / 4096), hexDigit (c.toNat / 256), hexDigit (c.toNat / 16),
        hexDigit c.toNat]
    else [c]

/-- The character of a code; halves of surrogate pairs are never written. -/
def ofCode (a b c d : Char) : Option Char :=
  match hexValue a, hexValue b, hexValue c, hexValue d with
  | some a, some b, some c, some d =>
    let code := a * 4096 + b * 256 + c * 16 + d
    if code.isValidChar then some (Char.ofNat code) else none
  | _, _, _, _ => none

def consText (c : Option Char) (read : Option (List Char × List Char)) :
    Option (List Char × List Char) :=
  match c, read with
  | some c, some (text, rest) => some (c :: text, rest)
  | _, _ => none

/-- Read up to the closing quote. -/
def readText : List Char → Option (List Char × List Char)
  | [] => none
  | '"' :: rest => some ([], rest)
  | '\\' :: 'u' :: a :: b :: c :: d :: rest => consText (ofCode a b c d) (readText rest)
  | '\\' :: e :: rest => consText (shortUnescape e) (readText rest)
  | c :: rest => if c.toNat < 32 ∨ c = '\\' then none else consText (some c) (readText rest)

theorem hexValue_hexDigit (n : ℕ) : hexValue (hexDigit n) = some (n % 16) := by
  have hall : ∀ k : Fin 16, hexValue (hexDigit k) = some (k : ℕ) := by decide
  have hk := hall ⟨n % 16, Nat.mod_lt _ (by omega)⟩
  simpa [hexDigit] using hk

variable {c : Char} {rest : List Char}

theorem ofCode_hexDigits (h : c.toNat < 65536) :
    ofCode (hexDigit (c.toNat / 4096)) (hexDigit (c.toNat / 256)) (hexDigit (c.toNat / 16))
      (hexDigit c.toNat) = some c := by
  have hcode : c.toNat / 4096 % 16 * 4096 + c.toNat / 256 % 16 * 256 + c.toNat / 16 % 16 * 16 +
      c.toNat % 16 = c.toNat := by omega
  have hvalid : c.toNat.isValidChar := c.valid
  simp only [ofCode, hexValue_hexDigit, hcode, if_pos hvalid, Char.ofNat_toNat]

theorem shortUnescape_shortEscape {e : Char} (h : shortEscape c = some e) :
    shortUnescape e = some c ∧ e ≠ 'u' := by
  unfold shortEscape at h
  split at h <;> cases h <;> decide

theorem readText_escape (c : Char) (rest : List Char) :
    readText (escape c ++ rest) = consText (some c) (readText rest) := by
  unfold escape
  cases hshort : shortEscape c with
  | some e =>
    obtain ⟨hc, hu⟩ := shortUnescape_shortEscape hshort
    simp [readText, hc, hu]
  | none =>
    by_cases hcode : NeedsCode c
    · have hsmall : c.toNat < 65536 := by
        rcases hcode with h | rfl | rfl | rfl | h | h
        · omega
        · decide
        · decide
        · decide
        · omega
        · omega
      rw [if_pos hcode]
      simp only [cons_append, nil_append, readText, ofCode_hexDigits hsmall]
    · have hquote : c ≠ '"' := by
        rintro rfl
        cases hshort
      have hslash : c ≠ '\\' := by
        rintro rfl
        cases hshort
      have hcontrol : ¬c.toNat < 32 := fun h => hcode (.inl h)
      rw [if_neg hcode]
      simp [readText, hslash, hcontrol]

theorem readText_flatMap_escape (text rest : List Char) :
    readText (text.flatMap escape ++ '"' :: rest) = some (text, rest) := by
  induction text with
  | nil => rfl
  | cons c text ih => rw [flatMap_cons, append_assoc, readText_escape, ih, consText]

/-! ## Numbers -/

def printInt (n : ℤ) : List Char :=
  if n < 0 then '-' :: Nat.toDigits 10 n.natAbs else Nat.toDigits 10 n.natAbs

def readNat (cs : List Char) : Option (ℕ × List Char) :=
  if cs.takeWhile Char.isDigit = [] then none
  else some (Nat.ofDigitChars 10 (cs.takeWhile Char.isDigit) 0, cs.dropWhile Char.isDigit)

def readInt (cs : List Char) : Option (ℤ × List Char) :=
  if cs.head? = some '-' then (readNat cs.tail).map fun x => (-x.1, x.2)
  else (readNat cs).map fun x => (x.1, x.2)

/-- The text after a number does not go on with a digit. -/
def NoDigit (rest : List Char) : Prop := ∀ c ∈ rest.head?, c.isDigit = false

theorem isDigit_toDigits {n : ℕ} (h : c ∈ Nat.toDigits 10 n) : c.isDigit = true :=
  Nat.isDigit_of_mem_toDigits (by decide) (by decide) h

theorem readNat_toDigits (n : ℕ) (h : NoDigit rest) :
    readNat (Nat.toDigits 10 n ++ rest) = some (n, rest) := by
  have hdigits : ∀ c ∈ Nat.toDigits 10 n, c.isDigit = true := fun c hc => isDigit_toDigits hc
  have htake : rest.takeWhile Char.isDigit = [] := by
    cases rest with
    | nil => rfl
    | cons c rest => exact takeWhile_cons_of_neg (by simp [h c rfl])
  have hdrop : rest.dropWhile Char.isDigit = rest := by
    cases rest with
    | nil => rfl
    | cons c rest => exact dropWhile_cons_of_neg (by simp [h c rfl])
  rw [readNat, takeWhile_append_of_pos hdigits, dropWhile_append_of_pos hdigits, htake,
    hdrop, append_nil, if_neg Nat.toDigits_ne_nil,
    Nat.ofDigitChars_toDigits (by decide) (by decide)]

theorem mem_printInt {n : ℤ} (h : c ∈ printInt n) : c = '-' ∨ c.isDigit = true := by
  unfold printInt at h
  split at h
  · cases mem_cons.mp h with
    | inl hc => exact .inl hc
    | inr hc => exact .inr (isDigit_toDigits hc)
  · exact .inr (isDigit_toDigits h)

theorem printInt_ne_nil (n : ℤ) : printInt n ≠ [] := by
  unfold printInt
  split
  · exact cons_ne_nil _ _
  · exact Nat.toDigits_ne_nil

theorem readInt_printInt (n : ℤ) (h : NoDigit rest) :
    readInt (printInt n ++ rest) = some (n, rest) := by
  unfold printInt readInt
  by_cases hn : n < 0
  · rw [if_pos hn, cons_append, List.head?_cons, if_pos rfl, tail_cons,
      readNat_toDigits _ h, Option.map_some]
    congr 2
    omega
  · obtain ⟨d, ds, hds⟩ := exists_cons_of_ne_nil (@Nat.toDigits_ne_nil n.natAbs 10)
    have hd : d ≠ '-' := by
      rintro rfl
      have hdigit : ('-').isDigit = true := isDigit_toDigits (hds ▸ mem_cons_self)
      cases hdigit
    have hhead : (Nat.toDigits 10 n.natAbs ++ rest).head? ≠ some '-' := by
      simp [hds, hd]
    rw [if_neg hn, if_neg hhead, readNat_toDigits _ h, Option.map_some]
    congr 2
    omega

def printValue : Value → List Char
  | .null => ['n', 'u', 'l', 'l']
  | .int n => printInt n
  | .text s => '"' :: (s.flatMap escape ++ ['"'])

def readValue (cs : List Char) : Option (Value × List Char) :=
  if cs.head? = some '"' then (readText cs.tail).map fun x => (.text x.1, x.2)
  else if cs.take 4 = ['n', 'u', 'l', 'l'] then some (.null, cs.drop 4)
  else (readInt cs).map fun x => (.int x.1, x.2)

theorem readValue_printValue (v : Value) (h : NoDigit rest) :
    readValue (printValue v ++ rest) = some (v, rest) := by
  cases v with
  | null => rfl
  | text s =>
    have hbody : (s.flatMap escape ++ ['"']) ++ rest = s.flatMap escape ++ '"' :: rest := by
      rw [append_assoc, singleton_append]
    rw [printValue, cons_append, hbody, readValue, head?_cons, if_pos rfl,
      tail_cons, readText_flatMap_escape, map_some]
  | int n =>
    obtain ⟨c, cs, hcs⟩ := exists_cons_of_ne_nil (printInt_ne_nil n)
    have hc : c = '-' ∨ c.isDigit = true := mem_printInt (hcs ▸ mem_cons_self)
    have hquote : c ≠ '"' := by
      rintro rfl
      exact absurd hc (by decide)
    have hnull : c ≠ 'n' := by
      rintro rfl
      exact absurd hc (by decide)
    have hread := readInt_printInt n h
    rw [printValue, readValue]
    rw [hcs, cons_append] at hread ⊢
    rw [if_neg (by simp [hquote]), if_neg (by simp [hnull]), hread, Option.map_some]

/-! ## Objects -/

def printField (f : Field) : List Char :=
  '"' :: (f.1.flatMap escape ++ '"' :: ':' :: printValue f.2)

/-- The fields up to the closing brace. -/
def printFields : List Field → List Char
  | [] => ['}']
  | [f] => printField f ++ ['}']
  | f :: g :: fs => printField f ++ ',' :: printFields (g :: fs)

def printObject (fields : List Field) : List Char := '{' :: printFields fields

def readField (cs : List Char) : Option (Field × List Char) :=
  if cs.head? = some '"' then
    match readText cs.tail with
    | some (name, ':' :: rest) => (readValue rest).map fun x => ((name, x.1), x.2)
    | _ => none
  else none

/-- Fields up to the closing brace, at which the text ends. -/
def readFields : ℕ → List Char → Option (List Field)
  | 0, _ => none
  | fuel + 1, cs =>
    match readField cs with
    | some (f, ',' :: rest) => (readFields fuel rest).map (f :: ·)
    | some (f, ['}']) => some [f]
    | _ => none

def readObject (cs : List Char) : Option (List Field) :=
  if cs = ['{', '}'] then some []
  else if cs.head? = some '{' then readFields cs.length cs.tail
  else none

theorem readField_printField (f : Field) (h : NoDigit rest) :
    readField (printField f ++ rest) = some (f, rest) := by
  have htext : (f.1.flatMap escape ++ '"' :: ':' :: printValue f.2) ++ rest =
      f.1.flatMap escape ++ '"' :: ':' :: (printValue f.2 ++ rest) := by
    rw [append_assoc, cons_append, cons_append]
  rw [printField, cons_append, htext, readField, head?_cons, if_pos rfl, tail_cons,
    readText_flatMap_escape]
  simp only [readValue_printValue f.2 h, map_some]

theorem readFields_printFields (f : Field) (fs : List Field) {fuel : ℕ} (h : fs.length < fuel) :
    readFields fuel (printFields (f :: fs)) = some (f :: fs) := by
  induction fs generalizing f fuel with
  | nil =>
    obtain ⟨fuel, rfl⟩ := Nat.exists_eq_add_one_of_ne_zero (by omega : fuel ≠ 0)
    have hend : NoDigit ['}'] := by simp [NoDigit]
    rw [printFields, readFields, readField_printField f hend]
    rfl
  | cons g fs ih =>
    obtain ⟨fuel, rfl⟩ := Nat.exists_eq_add_one_of_ne_zero (by omega : fuel ≠ 0)
    have hcomma : NoDigit (',' :: printFields (g :: fs)) := by simp [NoDigit]
    have hrest : readFields fuel (printFields (g :: fs)) = some (g :: fs) := by
      apply ih
      rw [length_cons] at h
      omega
    rw [printFields, readFields, readField_printField f hcomma]
    simp only [hrest, map_some]

theorem length_le_printFields (fs : List Field) : fs.length ≤ (printFields fs).length := by
  induction fs with
  | nil => exact Nat.zero_le _
  | cons f fs ih =>
    cases fs with
    | nil => simp [printFields]
    | cons g fs =>
      simp only [printFields, length_append, length_cons] at ih ⊢
      omega

/-- Reading an object undoes writing it. -/
theorem readObject_printObject (fields : List Field) :
    readObject (printObject fields) = some fields := by
  cases fields with
  | nil => rfl
  | cons f fs =>
    have hlen := length_le_printFields (f :: fs)
    have hne : printObject (f :: fs) ≠ ['{', '}'] := by
      cases fs <;> simp [printObject, printFields, printField]
    rw [readObject, if_neg hne, printObject, head?_cons, if_pos rfl, tail_cons]
    apply readFields_printFields
    rw [length_cons] at hlen ⊢
    omega

end FlatJson
