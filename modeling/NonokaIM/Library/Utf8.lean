import Mathlib.Data.List.Basic

/-! Texts as bytes in UTF-8, where such bytes may be cut, and how other bytes are made a text. -/

namespace Utf8

open List ByteArray

/-- The bytes of a text. -/
def encode (text : List Char) : List UInt8 := text.flatMap String.utf8EncodeChar

/-- The bytes are those of a text. -/
def Valid (bytes : List UInt8) : Prop := ∃ text, encode text = bytes

@[simp] theorem encode_nil : encode [] = [] := rfl

@[simp] theorem encode_cons (c : Char) (text : List Char) :
    encode (c :: text) = String.utf8EncodeChar c ++ encode text := rfl

theorem encode_append (text text' : List Char) :
    encode (text ++ text') = encode text ++ encode text' := flatMap_append

theorem valid_encode (text : List Char) : Valid (encode text) := ⟨text, rfl⟩

variable {bytes : List UInt8}

theorem Valid.append {bytes' : List UInt8} (h : Valid bytes) (h' : Valid bytes') :
    Valid (bytes ++ bytes') := by
  obtain ⟨text, rfl⟩ := h
  obtain ⟨text', rfl⟩ := h'
  exact ⟨text ++ text', encode_append text text'⟩

theorem length_le_encode (text : List Char) : text.length ≤ (encode text).length := by
  induction text with
  | nil => exact Nat.le_refl _
  | cons c text ih =>
    have hpos := c.utf8Size_pos
    rw [encode_cons, length_cons, length_append, String.length_utf8EncodeChar]
    omega

theorem toUTF8_eq_encode (text : String) : text.toUTF8.data.toList = encode text.toList := by
  have h : text.toUTF8 = (encode text.toList).toByteArray := String.utf8Encode_toList.symm
  rw [h]
  simp

theorem starts_of_encode_append {text text' : List Char} {rest : List UInt8}
    (h : encode text ++ rest = encode text') : text <+: text' := by
  apply isPrefix_of_utf8Encode_append_eq_utf8Encode rest.toByteArray
  rw [utf8Encode, utf8Encode, ← toByteArray_append]
  exact congrArg toByteArray h

theorem first_byte_encode (c : Char) (text : List Char) :
    ∀ b ∈ (encode (c :: text))[0]?, b.IsUTF8FirstByte := by
  intro b hb
  have hpos := c.utf8Size_pos
  rw [encode_cons, getElem?_append_left (by rwa [String.length_utf8EncodeChar])] at hb
  obtain ⟨_, rfl⟩ := List.getElem?_eq_some_iff.mp hb
  exact UInt8.isUTF8FirstByte_getElem_zero_utf8EncodeChar

/-- No character goes on at byte `n`. -/
def CutsBetween (bytes : List UInt8) (n : ℕ) : Prop := ∀ b ∈ bytes[n]?, b.IsUTF8FirstByte

theorem valid_take_iff (hbytes : Valid bytes) (n : ℕ) :
    Valid (bytes.take n) ↔ CutsBetween bytes n := by
  obtain ⟨text, rfl⟩ := hbytes
  constructor
  · rintro ⟨start, hstart⟩
    have hsplit : encode start ++ (encode text).drop n = encode text := by
      rw [hstart, take_append_drop]
    obtain ⟨rest, rfl⟩ := starts_of_encode_append hsplit
    rw [encode_append, append_cancel_left_eq] at hsplit
    intro b hb
    rw [← Nat.add_zero n, ← getElem?_drop, encode_append, hsplit] at hb
    cases rest with
    | nil => cases hb
    | cons c rest => exact first_byte_encode c rest b hb
  · intro h
    induction text generalizing n with
    | nil => exact ⟨[], by simp⟩
    | cons c text ih =>
      rw [CutsBetween, encode_cons] at h
      rw [encode_cons]
      have hlen := String.length_utf8EncodeChar c
      by_cases hn : n < (String.utf8EncodeChar c).length
      · rw [getElem?_append_left hn, getElem?_eq_getElem hn] at h
        have hzero := UInt8.isUTF8FirstByte_getElem_utf8EncodeChar.mp (h _ rfl)
        exact ⟨[], by rw [hzero]; rfl⟩
      · rw [getElem?_append_right (by omega)] at h
        rw [take_append, take_of_length_le (by omega)]
        have hchar : Valid (String.utf8EncodeChar c) := ⟨[c], by simp⟩
        exact hchar.append (ih _ h)

theorem valid_of_append {rest : List UInt8} (h : Valid (bytes ++ rest))
    (hrest : ∀ b ∈ rest[0]?, b.IsUTF8FirstByte) : Valid bytes := by
  have hcut := (valid_take_iff h bytes.length).mpr
  rw [CutsBetween, getElem?_append_right (Nat.le_refl _), Nat.sub_self, take_left] at hcut
  exact hcut hrest

/-- The character at the start of some bytes; it takes at most four of them. -/
def firstChar (bytes : List UInt8) : Option Char := (bytes.take 4).toByteArray.utf8DecodeChar? 0

theorem eq_of_firstChar {c : Char} (h : firstChar bytes = some c) :
    ∃ rest, bytes = String.utf8EncodeChar c ++ rest := by
  have happend := congrArg (fun b => b.data.toList) (eq_of_utf8DecodeChar?_eq_some h)
  simp only [data_append, Array.toList_append, data_toByteArray] at happend
  have hstart : String.utf8EncodeChar c <+: bytes.take 4 := ⟨_, happend.symm⟩
  obtain ⟨rest, hrest⟩ := hstart.trans <| take_prefix 4 bytes
  exact ⟨rest, hrest.symm⟩

theorem firstChar_encodeChar (c : Char) (rest : List UInt8) :
    firstChar (String.utf8EncodeChar c ++ rest) = some c := by
  have hsize : (String.utf8EncodeChar c).length ≤ 4 := by
    rw [String.length_utf8EncodeChar]
    exact c.utf8Size_le_four
  have hchar : (String.utf8EncodeChar c).toByteArray = [c].utf8Encode := by
    rw [utf8Encode, flatMap_singleton]
  rw [firstChar, take_append, take_of_length_le hsize, toByteArray_append, hchar]
  exact utf8DecodeChar?_append_eq_some utf8DecodeChar?_utf8Encode_singleton _

section

variable (replacement : List UInt8)

/-- Every run of bytes that belong to no character is replaced; `skip` bytes belong to a character
found before, and `invalid` tells whether a run is being replaced. -/
def repairFrom : (skip : ℕ) → (invalid : Bool) → List UInt8 → List UInt8
  | _, _, [] => []
  | skip + 1, _, b :: bytes => b :: repairFrom skip false bytes
  | 0, invalid, b :: bytes =>
    match firstChar (b :: bytes) with
    | some c => b :: repairFrom (c.utf8Size - 1) false bytes
    | none => (if invalid then [] else replacement) ++ repairFrom 0 true bytes

/-- `strings.ToValidUTF8` of the Go library. -/
def repair (bytes : List UInt8) : List UInt8 := repairFrom replacement 0 false bytes

theorem repairFrom_append (xs bytes : List UInt8) :
    repairFrom replacement xs.length false (xs ++ bytes) =
      xs ++ repairFrom replacement 0 false bytes := by
  induction xs with
  | nil => rfl
  | cons x xs ih =>
    rw [length_cons, cons_append, repairFrom, ih]
    rfl

theorem repairFrom_encodeChar (invalid : Bool) (c : Char) (bytes : List UInt8) :
    repairFrom replacement 0 invalid (String.utf8EncodeChar c ++ bytes) =
      String.utf8EncodeChar c ++ repairFrom replacement 0 false bytes := by
  have hlen := String.length_utf8EncodeChar c
  have hfirst := firstChar_encodeChar c bytes
  cases hbytes : String.utf8EncodeChar c with
  | nil =>
    have hpos := c.utf8Size_pos
    rw [hbytes] at hlen
    exact absurd hlen.symm (Nat.ne_of_gt hpos)
  | cons b rest =>
    rw [hbytes] at hlen hfirst
    have hskip : c.utf8Size - 1 = rest.length := by
      rw [← hlen, length_cons, Nat.add_sub_cancel]
    rw [cons_append] at hfirst ⊢
    rw [repairFrom, hfirst]
    dsimp only
    rw [hskip, repairFrom_append]
    rfl

theorem repair_encode (text : List Char) : repair replacement (encode text) = encode text := by
  unfold repair
  generalize false = invalid
  induction text generalizing invalid with
  | nil => rfl
  | cons c text ih => rw [encode_cons, repairFrom_encodeChar, ih]

theorem valid_repairFrom (hreplacement : Valid replacement) (invalid : Bool)
    (bytes : List UInt8) : Valid (repairFrom replacement 0 invalid bytes) := by
  induction hn : bytes.length using Nat.strongRecOn generalizing bytes invalid with
  | _ n ih =>
    subst hn
    cases bytes with
    | nil => exact ⟨[], rfl⟩
    | cons b bytes =>
      cases hfirst : firstChar (b :: bytes) with
      | some c =>
        obtain ⟨rest, hrest⟩ := eq_of_firstChar hfirst
        have hlen := congrArg List.length hrest
        rw [length_append, String.length_utf8EncodeChar] at hlen
        have hpos := c.utf8Size_pos
        rw [hrest, repairFrom_encodeChar]
        have hchar : Valid (String.utf8EncodeChar c) := ⟨[c], by simp⟩
        exact hchar.append (ih rest.length (by omega) false rest rfl)
      | none =>
        have hmark : Valid (if invalid then [] else replacement) := by
          split
          · exact ⟨[], rfl⟩
          · exact hreplacement
        have htail := ih bytes.length (by simp) true bytes rfl
        have happend := hmark.append htail
        rw [repairFrom, hfirst]
        exact happend

theorem valid_repair (hreplacement : Valid replacement) (bytes : List UInt8) :
    Valid (repair replacement bytes) :=
  valid_repairFrom replacement hreplacement false bytes

end

end Utf8
