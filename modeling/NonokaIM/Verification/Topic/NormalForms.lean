import NonokaIM.Model.SdkTopic
import NonokaIM.Verification.Topic.Canonical
import Mathlib.Data.List.DropRight
import Mathlib.Data.List.TakeWhile
import Mathlib.Data.Sym.Sym2.Order

/-! # Normal forms of topics

The server scans the ids off the text, the SDK parses each part as a whole. -/

namespace NonokaIM

open List Sym2 Option

/-! ## Pairs of ids -/

variable {raw topic : String} {sign digits rest : List Char} {v : Int}

theorem ordered_eq_inf_sup (uid1 uid2 : Int) :
    (if uid1 > uid2 then (uid2, uid1) else (uid1, uid2)) = (uid1 ⊓ uid2, uid1 ⊔ uid2) := by
  by_cases h : uid1 > uid2
  · rw [if_pos h, inf_eq_right.mpr (le_of_lt h), sup_eq_left.mpr (le_of_lt h)]
  · rw [if_neg h, inf_eq_left.mpr (not_lt.mp h), sup_eq_right.mpr (not_lt.mp h)]

theorem normalizeTopic_of_ids {uid1 uid2 : Int} (htype : parseTopicType raw = .p2p)
    (hids : extractUserIDsFromP2PTopic raw = .ok (uid1, uid2)) :
    normalizeTopic raw = .ok (p2pTopic (uid1 ⊓ uid2) (uid1 ⊔ uid2)) := by
  simp only [normalizeTopic, htype, hids, bind, Except.bind, ordered_eq_inf_sup]
  rfl

theorem normalizeTopic_of_error {e : String} (htype : parseTopicType raw = .p2p)
    (hids : extractUserIDsFromP2PTopic raw = .error e) : normalizeTopic raw = .error e := by
  simp only [normalizeTopic, htype, hids, bind, Except.bind]

theorem p2pTopic_inj {lo hi lo' hi' : Int} (hlo : -2 ^ 63 ≤ lo ∧ lo < 2 ^ 63)
    (hhi : -2 ^ 63 ≤ hi ∧ hi < 2 ^ 63) (hlo' : -2 ^ 63 ≤ lo' ∧ lo' < 2 ^ 63)
    (hhi' : -2 ^ 63 ≤ hi' ∧ hi' < 2 ^ 63) :
    p2pTopic lo hi = p2pTopic lo' hi' ↔ lo = lo' ∧ hi = hi' := by
  constructor
  · intro h
    have hids := extractUserIDs_p2pTopic hlo hhi
    rw [h, extractUserIDs_p2pTopic hlo' hhi'] at hids
    cases hids
    exact ⟨rfl, rfl⟩
  · rintro ⟨rfl, rfl⟩
    rfl

theorem normalizeTopic_eq_iff {raw' : String} {uid1 uid2 uid1' uid2' : Int}
    (htype : parseTopicType raw = .p2p) (htype' : parseTopicType raw' = .p2p)
    (hids : extractUserIDsFromP2PTopic raw = .ok (uid1, uid2))
    (hids' : extractUserIDsFromP2PTopic raw' = .ok (uid1', uid2')) :
    normalizeTopic raw = normalizeTopic raw' ↔ s(uid1, uid2) = s(uid1', uid2') := by
  obtain ⟨h1, h2⟩ := extractUserIDs_range hids
  obtain ⟨h1', h2'⟩ := extractUserIDs_range hids'
  rw [normalizeTopic_of_ids htype hids, normalizeTopic_of_ids htype' hids', Except.ok.injEq,
    p2pTopic_inj, ← inf_eq_inf_and_sup_eq_sup, inf_mk, inf_mk, sup_mk,
    sup_mk]
  · exact ⟨le_inf h1.1 h2.1, inf_lt_of_left_lt h1.2⟩
  · exact ⟨le_sup_of_le_left h1.1, sup_lt_iff.mpr ⟨h1.2, h2.2⟩⟩
  · exact ⟨le_inf h1'.1 h2'.1, inf_lt_of_left_lt h1'.2⟩
  · exact ⟨le_sup_of_le_left h1'.1, sup_lt_iff.mpr ⟨h1'.2, h2'.2⟩⟩

theorem canAccessTopic_normalized (h : normalizeTopic raw = .ok topic) (a : TopicAuthorizer)
    (userID : Int) : a.canAccessTopic userID raw = a.canAccessTopic userID topic := by
  simp only [TopicAuthorizer.canAccessTopic, h, normalizeTopic_normalized h]

/-- Normal forms are canonical: they are fixed by normalization, they are equal for equal
unordered pairs of ids only, and access to a topic is access to its normal form. -/
theorem normalForms_canonical :
    (∀ raw topic, normalizeTopic raw = .ok topic → normalizeTopic topic = .ok topic) ∧
    (∀ raw raw' topic topic' ids ids', parseTopicType raw = .p2p → parseTopicType raw' = .p2p →
      normalizeTopic raw = .ok topic → normalizeTopic raw' = .ok topic' →
      extractUserIDsFromP2PTopic raw = .ok ids → extractUserIDsFromP2PTopic raw' = .ok ids' →
      (topic = topic' ↔ s(ids.1, ids.2) = s(ids'.1, ids'.2))) ∧
    ∀ (a : TopicAuthorizer) (userID : Int) (raw topic : String), normalizeTopic raw = .ok topic →
      a.canAccessTopic userID raw = a.canAccessTopic userID topic := by
  refine ⟨fun _ _ => normalizeTopic_normalized, ?_, fun a userID _ _ h =>
    canAccessTopic_normalized h a userID⟩
  intro raw raw' topic topic' ids ids' htype htype' h h' hids hids'
  rw [← normalizeTopic_eq_iff htype htype' hids hids', h, h', Except.ok.injEq]

/-! ## Scanned and parsed numbers -/

def isBlank (c : Char) : Bool := isSpace c && c != '\n'

/-- The sign at the head of a text, as both readers take it. -/
def signOf (s : List Char) : List Char := (s.takeWhile fun c => c == '+' || c == '-').take 1

def IsSign (sign : List Char) : Prop := sign = [] ∨ sign = ['+'] ∨ sign = ['-']

theorem signOf_spec (s : List Char) :
    IsSign (signOf s) ∧ s = signOf s ++ s.drop (signOf s).length := by
  cases s with
  | nil => exact ⟨.inl rfl, rfl⟩
  | cons c cs =>
    by_cases hplus : c = '+'
    · subst c
      exact ⟨.inr (.inl rfl), rfl⟩
    · by_cases hminus : c = '-'
      · subst c
        exact ⟨.inr (.inr rfl), rfl⟩
      · have hnone : signOf (c :: cs) = [] := by simp [signOf, hplus, hminus]
        rw [hnone]
        exact ⟨.inl rfl, rfl⟩

theorem signOf_append {body : List Char} (hsign : IsSign sign)
    (hbody : ∃ d ds, body = d :: ds ∧ d.isDigit = true) : signOf (sign ++ body) = sign := by
  obtain ⟨d, ds, rfl, hd⟩ := hbody
  have hplus : d ≠ '+' := ne_of_isDigit hd (by decide)
  have hminus : d ≠ '-' := ne_of_isDigit hd (by decide)
  rcases hsign with rfl | rfl | rfl
  · simp [signOf, hplus, hminus]
  · simp [signOf]
  · simp [signOf]

variable (input : List Char)

theorem skipSpace_eq :
    skipSpace input =
      if (input.dropWhile isBlank).head? = some '\n' then .error "unexpected newline"
      else .ok (input.dropWhile isBlank) := by
  induction input with
  | nil => rfl
  | cons c cs ih =>
    rw [skipSpace]
    by_cases hc : c = '\n'
    · simp [hc, isBlank]
    by_cases hs : isSpace c = true
    · have hblank : isBlank c = true := by simp [isBlank, hs, hc]
      rw [if_neg hc, if_pos hs, ih, dropWhile_cons_of_pos hblank]
    · have hblank : ¬ isBlank c = true := by simp [isBlank, hs]
      rw [if_neg hc, if_neg hs, dropWhile_cons_of_neg hblank]
      simp [hc]

def signedValue (sign digits : List Char) : Int :=
  if sign = ['-'] then -(digitsToNat digits : Int) else digitsToNat digits

/-- A sign and digits that write a number in the range of 64 bits. -/
structure Numeral (sign digits : List Char) : Prop where
  isSign : IsSign sign
  ne_nil : digits ≠ []
  all : ∀ c ∈ digits, c.isDigit = true
  range : -2 ^ 63 ≤ signedValue sign digits ∧ signedValue sign digits < 2 ^ 63

theorem Numeral.head (h : Numeral sign digits) (rest : List Char) :
    ∃ d ds, digits ++ rest = d :: ds ∧ d.isDigit = true := by
  obtain ⟨d, ds, rfl⟩ := exists_cons_of_ne_nil h.ne_nil
  exact ⟨d, ds ++ rest, rfl, h.all d mem_cons_self⟩

theorem parseInt64_eq (s : List Char) :
    parseInt64 s =
      if s.drop (signOf s).length = [] ∨ ¬ (s.drop (signOf s).length).all Char.isDigit then none
      else if -2 ^ 63 ≤ signedValue (signOf s) (s.drop (signOf s).length) ∧
          signedValue (signOf s) (s.drop (signOf s).length) < 2 ^ 63 then
        some (signedValue (signOf s) (s.drop (signOf s).length))
      else none := rfl

theorem parseInt64_append (h : Numeral sign digits) :
    parseInt64 (sign ++ digits) = some (signedValue sign digits) := by
  have hhead := h.head []
  rw [append_nil] at hhead
  have hall : digits.all Char.isDigit = true := all_eq_true.mpr h.all
  rw [parseInt64_eq, signOf_append h.isSign hhead, drop_left, if_neg, if_pos h.range]
  rintro (hnil | hnot)
  · exact h.ne_nil hnil
  · exact hnot hall

theorem parseInt64_iff {s : List Char} :
    parseInt64 s = some v ↔
      ∃ sign digits, s = sign ++ digits ∧ Numeral sign digits ∧ v = signedValue sign digits := by
  constructor
  · intro h
    obtain ⟨hsign, hs⟩ := signOf_spec s
    refine ⟨signOf s, s.drop (signOf s).length, hs, ?_⟩
    rw [parseInt64_eq] at h
    split at h
    · cases h
    rename_i hdigits
    rw [not_or, not_not] at hdigits
    split at h
    · rename_i hrange
      exact ⟨⟨hsign, hdigits.1, all_eq_true.mp hdigits.2, hrange⟩, (some.inj h).symm⟩
    · cases h
  · rintro ⟨sign, digits, rfl, h, rfl⟩
    exact parseInt64_append h

def scanNumber (cs : List Char) : Except String (Int × List Char) :=
  let body := cs.drop (signOf cs).length
  let digits := body.takeWhile Char.isDigit
  if body = [] then .error "EOF"
  else if digits = [] then .error "expected integer"
  else if -2 ^ 63 ≤ signedValue (signOf cs) digits ∧ signedValue (signOf cs) digits < 2 ^ 63 then
    .ok (signedValue (signOf cs) digits, body.drop digits.length)
  else .error ("strconv.ParseInt: parsing \"" ++ String.ofList (signOf cs ++ digits) ++
    "\": value out of range")

theorem scanInt_eq : scanInt input = (skipSpace input).bind scanNumber := rfl

theorem scanNumber_append (h : Numeral sign digits) (hrest : rest.takeWhile Char.isDigit = []) :
    scanNumber (sign ++ (digits ++ rest)) = .ok (signedValue sign digits, rest) := by
  have hdigits : (digits ++ rest).takeWhile Char.isDigit = digits := by
    rw [takeWhile_append_of_pos h.all, hrest, append_nil]
  have hne : digits ++ rest ≠ [] := by simp [h.ne_nil]
  simp only [scanNumber, signOf_append h.isSign (h.head rest), drop_left, hdigits]
  rw [if_neg hne, if_neg h.ne_nil, if_pos h.range]

theorem scanNumber_ok {cs : List Char} (h : scanNumber cs = .ok (v, rest)) :
    ∃ number, cs = number ++ rest ∧ parseInt64 number = some v ∧
      rest.takeWhile Char.isDigit = [] := by
  obtain ⟨hsign, hcs⟩ := signOf_spec cs
  unfold scanNumber at h
  dsimp only at h
  generalize cs.drop (signOf cs).length = body at h hcs
  have hbody : body.takeWhile Char.isDigit ++ body.dropWhile Char.isDigit = body :=
    takeWhile_append_dropWhile
  split at h
  · cases h
  split at h
  · cases h
  rename_i hne hdigits
  split at h
  · rename_i hrange
    obtain ⟨rfl, rfl⟩ := Prod.mk.inj (Except.ok.inj h)
    have hnum : Numeral (signOf cs) (body.takeWhile Char.isDigit) :=
      ⟨hsign, hdigits, fun c hc => mem_takeWhile_imp hc, hrange⟩
    have hdrop : body.drop (body.takeWhile Char.isDigit).length =
        body.dropWhile Char.isDigit :=
      (congrArg (drop _) hbody).symm.trans drop_left
    refine ⟨_, ?_, parseInt64_append hnum, ?_⟩
    · rw [hdrop, append_assoc, hbody, ← hcs]
    · rw [hdrop, takeWhile_eq_nil_iff]
      exact fun hl => by simpa using dropWhile_get_zero_not _ _ hl
  · cases h

theorem scanInt_iff {input : List Char} :
    scanInt input = .ok (v, rest) ↔
      ∃ blanks number, input = blanks ++ (number ++ rest) ∧ (∀ c ∈ blanks, isBlank c = true) ∧
        parseInt64 number = some v ∧ rest.takeWhile Char.isDigit = [] := by
  rw [scanInt_eq, skipSpace_eq]
  constructor
  · intro h
    split at h
    · cases h
    · obtain ⟨number, hcs, hnumber, hrest⟩ := scanNumber_ok h
      refine ⟨input.takeWhile isBlank, number, ?_, fun c hc => mem_takeWhile_imp hc, hnumber, hrest⟩
      rw [← hcs, takeWhile_append_dropWhile]
  · rintro ⟨blanks, number, rfl, hblanks, hnumber, hrest⟩
    obtain ⟨sign, digits, rfl, hnum, rfl⟩ := parseInt64_iff.mp hnumber
    have hhead : ∃ c cs, sign ++ (digits ++ rest) = c :: cs ∧ isBlank c = false ∧ c ≠ '\n' := by
      obtain ⟨d, ds, hd, hdigit⟩ := hnum.head rest
      rcases hnum.isSign with rfl | rfl | rfl
      · exact ⟨d, ds, hd, by simp [isBlank, isSpace_of_isDigit hdigit],
          ne_of_isDigit hdigit (by decide)⟩
      · exact ⟨_, _, rfl, by decide, by decide⟩
      · exact ⟨_, _, rfl, by decide, by decide⟩
    have hdrop : (blanks ++ (sign ++ (digits ++ rest))).dropWhile isBlank =
        sign ++ (digits ++ rest) := by
      obtain ⟨c, cs, hc, hblank, -⟩ := hhead
      rw [dropWhile_append_of_pos hblanks, hc, dropWhile_cons_of_neg (by simp [hblank])]
    rw [append_assoc, hdrop, if_neg]
    · exact scanNumber_append hnum hrest
    · obtain ⟨c, cs, hc, -, hnl⟩ := hhead
      simp [hc, hnl]

theorem scanInt_dropWhile : scanInt (input.dropWhile isBlank) = scanInt input := by
  rw [scanInt_eq, scanInt_eq, skipSpace_eq, skipSpace_eq, dropWhile_idempotent]

/-! ## Ids of a topic -/

/-- A text that begins with two numbers, with blanks between them and maybe before them. -/
def TwoNumbers (text : List Char) (v w : Int) : Prop :=
  ∃ blanks number blanks' number' rest,
    text = blanks ++ (number ++ (blanks' ++ (number' ++ rest))) ∧
    (∀ c ∈ blanks, isBlank c = true) ∧ (∀ c ∈ blanks', isBlank c = true) ∧ blanks' ≠ [] ∧
    parseInt64 number = some v ∧ parseInt64 number' = some w ∧
    rest.takeWhile Char.isDigit = []

def scanPair (text : List Char) : Except String (Int × Int) := do
  let (uid1, rest) ← scanInt text
  let rest ← matchSpace rest
  let (uid2, _) ← scanInt rest
  .ok (uid1, uid2)

theorem matchSpace_cons {c : Char} (cs : List Char) (hc : isBlank c = true) :
    matchSpace (c :: cs) = .ok (cs.dropWhile isBlank) := by
  simp only [isBlank, Bool.and_eq_true, bne_iff_ne] at hc
  rw [matchSpace, if_neg hc.2, if_pos hc.1]
  rfl

theorem matchSpace_ok {rest' : List Char} (h : matchSpace rest = .ok rest') :
    rest = [] ∧ rest' = [] ∨
      ∃ c cs, rest = c :: cs ∧ isBlank c = true ∧ rest' = cs.dropWhile isBlank := by
  cases rest with
  | nil =>
    cases h
    exact .inl ⟨rfl, rfl⟩
  | cons c cs =>
    rw [matchSpace] at h
    split at h
    · cases h
    rename_i hnl
    split at h
    · rename_i hspace
      cases h
      exact .inr ⟨c, cs, rfl, by simp [isBlank, hspace, hnl], rfl⟩
    · cases h

theorem scanPair_of_twoNumbers {text : List Char} {w : Int} (h : TwoNumbers text v w) :
    scanPair text = .ok (v, w) := by
  obtain ⟨blanks, number, blanks', number', rest, rfl, hb, hb', hne, hv, hw, hrest⟩ := h
  obtain ⟨c, cs, rfl⟩ := exists_cons_of_ne_nil hne
  have hc : isBlank c = true := hb' c mem_cons_self
  have hnot : c.isDigit = false := by
    rw [← Bool.not_eq_true]
    intro hd
    simp [isBlank, isSpace_of_isDigit hd] at hc
  have hfirst : scanInt (blanks ++ (number ++ (c :: cs ++ (number' ++ rest)))) =
      .ok (v, c :: cs ++ (number' ++ rest)) :=
    scanInt_iff.mpr ⟨blanks, number, rfl, hb, hv, by simp [hnot]⟩
  have hsecond : scanInt (cs ++ (number' ++ rest)) = .ok (w, rest) :=
    scanInt_iff.mpr ⟨cs, number', rfl, fun d hd => hb' d (mem_cons_of_mem _ hd), hw, hrest⟩
  rw [scanPair, hfirst, cons_append]
  simp only [bind, Except.bind, matchSpace_cons _ hc, scanInt_dropWhile, hsecond]

theorem twoNumbers_of_scanPair {text : List Char} {w : Int} (h : scanPair text = .ok (v, w)) :
    TwoNumbers text v w := by
  obtain ⟨⟨uid1, rest⟩, hfirst, h⟩ := bind_eq_ok.mp h
  obtain ⟨rest', hspace, h⟩ := bind_eq_ok.mp h
  obtain ⟨⟨uid2, tail⟩, hsecond, h⟩ := bind_eq_ok.mp h
  cases h
  obtain ⟨blanks, number, rfl, hb, hv, -⟩ := scanInt_iff.mp hfirst
  rcases matchSpace_ok hspace with ⟨rfl, rfl⟩ | ⟨c, cs, rfl, hc, rfl⟩
  · cases hsecond
  · rw [scanInt_dropWhile] at hsecond
    obtain ⟨blanks', number', rfl, hb', hw, htail⟩ := scanInt_iff.mp hsecond
    exact ⟨blanks, number, c :: blanks', number', tail, rfl, hb, forall_mem_cons.mpr ⟨hc, hb'⟩,
      by simp, hv, hw, htail⟩

/-! ## Server and SDK -/

theorem parseTopicType_of_p2p (h : hasPrefix topic "p2p_" = true) :
    parseTopicType topic = .p2p := by
  rw [parseTopicType, if_pos h]

theorem splitUnderscore_of_prefix (h : hasPrefix topic "p2p_" = true) :
    ∃ parts, splitUnderscore topic = "p2p".toList :: parts := by
  obtain ⟨rest, hrest⟩ := isPrefixOf_iff_prefix.mp h
  refine ⟨rest.splitOn '_', ?_⟩
  rw [splitUnderscore, ← hrest]
  exact splitOn_append_cons_self_of_not_mem (show '_' ∉ "p2p".toList by decide) rest

theorem Sdk.p2pTopic_eq (uid1 uid2 : Int) :
    Sdk.p2pTopic uid1 uid2 = NonokaIM.p2pTopic (uid1 ⊓ uid2) (uid1 ⊔ uid2) := by
  rw [Sdk.p2pTopic, ordered_eq_inf_sup]
  rfl

/-- Whether the server reads two numbers off a P2P topic only where both of its parts are
numbers. -/
def PlainIDs (topic : String) : Prop :=
  ∀ part0 part1 part2, splitUnderscore topic = [part0, part1, part2] →
    (∃ v w, TwoNumbers (part1 ++ ' ' :: part2) v w) →
    (parseInt64 part1).isSome ∧ (parseInt64 part2).isSome

theorem extractUserIDs_of_parts {part0 part1 part2 : List Char}
    (h : splitUnderscore topic = [part0, part1, part2]) :
    extractUserIDsFromP2PTopic topic =
      wrapErr "parse p2p topic user IDs: " (scanPair (part1 ++ ' ' :: part2)) := by
  rw [extractUserIDsFromP2PTopic, h]
  rfl

section

variable (hp2p : hasPrefix topic "p2p_" = true)
include hp2p

theorem normalizeTopic_of_parts {part0 part1 part2 : List Char}
    (h : splitUnderscore topic = [part0, part1, part2]) :
    (normalizeTopic topic).toOption = none ↔
      ¬ ∃ v w, TwoNumbers (part1 ++ ' ' :: part2) v w := by
  have htype := parseTopicType_of_p2p hp2p
  have hids := extractUserIDs_of_parts h
  cases hpair : scanPair (part1 ++ ' ' :: part2) with
  | error e =>
    rw [hpair] at hids
    rw [normalizeTopic_of_error htype hids]
    refine iff_of_true rfl ?_
    rintro ⟨v, w, htwo⟩
    rw [scanPair_of_twoNumbers htwo] at hpair
    cases hpair
  | ok ids =>
    rw [hpair] at hids
    rw [normalizeTopic_of_ids htype hids]
    exact iff_of_false (by simp [Except.toOption])
      (not_not_intro ⟨_, _, twoNumbers_of_scanPair hpair⟩)

theorem normalizeTopic_of_not_parts
    (h : ∀ part0 part1 part2, splitUnderscore topic ≠ [part0, part1, part2]) :
    (normalizeTopic topic).toOption = none := by
  have hids : extractUserIDsFromP2PTopic topic =
      .error ("invalid p2p topic format: " ++ topic) := by
    unfold extractUserIDsFromP2PTopic
    split
    · rename_i hsplit
      exact absurd hsplit (h _ _ _)
    · rfl
  rw [normalizeTopic_of_error (parseTopicType_of_p2p hp2p) hids]
  rfl

namespace Sdk

theorem normalizeTopic_of_not_parts
    (h : ∀ part0 part1 part2, splitUnderscore topic ≠ [part0, part1, part2]) :
    (Sdk.normalizeTopic topic).toOption = none := by
  have hids : parseP2PTopic topic = .error ("invalid p2p topic: " ++ topic) := by
    unfold parseP2PTopic
    split
    · rename_i hsplit
      exact absurd hsplit (h _ _ _)
    · rfl
  rw [Sdk.normalizeTopic, if_neg (not_not_intro hp2p), hids]
  rfl

theorem normalizeTopic_of_numbers {part1 part2 : List Char} {v w : Int}
    (h : splitUnderscore topic = ["p2p".toList, part1, part2]) (hv : parseInt64 part1 = some v)
    (hw : parseInt64 part2 = some w) :
    Sdk.normalizeTopic topic = NonokaIM.normalizeTopic topic := by
  have htwo : TwoNumbers (part1 ++ ' ' :: part2) v w := by
    have hblank : ∀ c ∈ [' '], isBlank c = true := forall_mem_singleton.mpr (by decide)
    refine ⟨[], part1, [' '], part2, [], ?_, by simp, hblank, by simp, hv, hw, rfl⟩
    rw [append_nil]
    rfl
  have hids := extractUserIDs_of_parts h
  rw [scanPair_of_twoNumbers htwo] at hids
  rw [normalizeTopic_of_ids (parseTopicType_of_p2p hp2p) hids, Sdk.normalizeTopic,
    if_neg (not_not_intro hp2p), parseP2PTopic, h]
  simp only [ne_eq, not_true_eq_false, if_false, hv, hw, p2pTopic_eq]

theorem normalizeTopic_of_not_numbers {part1 part2 : List Char}
    (h : splitUnderscore topic = ["p2p".toList, part1, part2])
    (hnot : ¬ ((parseInt64 part1).isSome ∧ (parseInt64 part2).isSome)) :
    (Sdk.normalizeTopic topic).toOption = none := by
  rw [Sdk.normalizeTopic, if_neg (not_not_intro hp2p), parseP2PTopic, h]
  simp only [ne_eq, not_true_eq_false, if_false]
  cases hv : parseInt64 part1 with
  | none => rfl
  | some v =>
    cases hw : parseInt64 part2 with
    | none => rfl
    | some w => simp [hv, hw] at hnot

end Sdk

end

/-- Server and SDK agree on the topics in which the server reads no more than two plain numbers:
both refuse them, or both give the same normal form. -/
theorem sdk_normalForm_eq_iff {topic : String} (hp2p : hasPrefix topic "p2p_" = true) :
    (Sdk.normalizeTopic topic).toOption = (normalizeTopic topic).toOption ↔ PlainIDs topic := by
  by_cases hparts : ∃ part0 part1 part2, splitUnderscore topic = [part0, part1, part2]
  · obtain ⟨part0, part1, part2, hsplit⟩ := hparts
    obtain ⟨parts, hfirst⟩ := splitUnderscore_of_prefix hp2p
    obtain rfl : part0 = "p2p".toList := (cons.inj (hsplit.symm.trans hfirst)).1
    have hplain : PlainIDs topic ↔ ((∃ v w, TwoNumbers (part1 ++ ' ' :: part2) v w) →
        (parseInt64 part1).isSome ∧ (parseInt64 part2).isSome) := by
      constructor
      · exact fun h => h _ _ _ hsplit
      · intro h _ _ _ hsplit'
        rw [hsplit] at hsplit'
        cases hsplit'
        exact h
    rw [hplain]
    by_cases hnum : (parseInt64 part1).isSome ∧ (parseInt64 part2).isSome
    · obtain ⟨v, hv⟩ := isSome_iff_exists.mp hnum.1
      obtain ⟨w, hw⟩ := isSome_iff_exists.mp hnum.2
      rw [Sdk.normalizeTopic_of_numbers hp2p hsplit hv hw]
      exact iff_of_true rfl fun _ => hnum
    · rw [Sdk.normalizeTopic_of_not_numbers hp2p hsplit hnum, eq_comm,
        normalizeTopic_of_parts hp2p hsplit]
      exact ⟨fun h htwo => absurd htwo h, fun h htwo => hnum (h htwo)⟩
  · have hnone : ∀ part0 part1 part2, splitUnderscore topic ≠ [part0, part1, part2] :=
      fun _ _ _ hsplit => hparts ⟨_, _, _, hsplit⟩
    rw [normalizeTopic_of_not_parts hp2p hnone, Sdk.normalizeTopic_of_not_parts hp2p hnone]
    exact iff_of_true rfl fun _ _ _ hsplit => absurd hsplit (hnone _ _ _)

/-- Two numbers, one of them with a sign. -/
theorem signed_topic_agrees :
    hasPrefix "p2p_7_+5" "p2p_" = true ∧
      (Sdk.normalizeTopic "p2p_7_+5").toOption = (normalizeTopic "p2p_7_+5").toOption := by
  refine ⟨by decide, (sdk_normalForm_eq_iff (by decide)).mpr ?_⟩
  intro part0 part1 part2 hsplit _
  have hparts : splitUnderscore "p2p_7_+5" = ["p2p".toList, "7".toList, "+5".toList] := by decide
  rw [hparts] at hsplit
  cases hsplit
  decide

/-- The server ignores what follows a number, the SDK refuses it. -/
theorem trailing_text_accepted :
    hasPrefix "p2p_1_2x" "p2p_" = true ∧ normalizeTopic "p2p_1_2x" = .ok "p2p_1_2" ∧
      (Sdk.normalizeTopic "p2p_1_2x").toOption ≠ (normalizeTopic "p2p_1_2x").toOption := by
  decide

end NonokaIM
