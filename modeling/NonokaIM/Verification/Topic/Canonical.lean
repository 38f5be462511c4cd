import NonokaIM.Model.Authz

/-! # Canonical topics

Scanning undoes printing, so the ids of a normalized P2P topic are those it was written with. -/

namespace NonokaIM

open List

/-! ## Decimal numbers -/

theorem digitsToNat_toDigits (n : ℕ) : digitsToNat (Nat.toDigits 10 n) = n :=
  Nat.ofDigitChars_toDigits (by decide) (by decide)

variable {c : Char} {topic raw : String}

theorem isDigit_of_mem_decimal {n : ℕ} (hc : c ∈ Nat.toDigits 10 n) : c.isDigit = true :=
  Nat.isDigit_of_mem_toDigits (by decide) (by decide) hc

theorem all_isDigit_toDigits (n : ℕ) : (Nat.toDigits 10 n).all Char.isDigit = true :=
  all_eq_true.mpr fun _ hc => isDigit_of_mem_decimal hc

theorem toNat_of_isDigit (h : c.isDigit = true) : 48 ≤ c.toNat ∧ c.toNat ≤ 57 := by
  simpa [Char.isDigit, UInt32.le_iff_toNat_le] using h

theorem ne_of_isDigit {d : Char} (hc : c.isDigit = true) (hd : d.isDigit = false) : c ≠ d := by
  intro h
  rw [h, hd] at hc
  cases hc

theorem toList_toString_int (v : Int) :
    ∃ sign n, (toString v).toList = sign ++ Nat.toDigits 10 n ∧
      (sign = [] ∧ (n : Int) = v ∨ sign = ['-'] ∧ -(n : Int) = v) := by
  rw [Int.toString_eq_repr, Int.repr_eq_if]
  split
  · rename_i hv
    exact ⟨[], v.toNat, by rw [Nat.toList_repr, nil_append], .inl ⟨rfl, Int.toNat_of_nonneg hv⟩⟩
  · rename_i hv
    refine ⟨['-'], (-v).toNat, ?_, .inr ⟨rfl, by omega⟩⟩
    rw [String.toList_append, Nat.toList_repr]
    rfl

theorem take_sign {sign : List Char} (hsign : sign = [] ∨ sign = ['-']) (n : ℕ) (rest : List Char) :
    ((sign ++ Nat.toDigits 10 n ++ rest).takeWhile fun c => c == '+' || c == '-').take 1 =
      sign := by
  obtain ⟨d, ds, hds⟩ := exists_cons_of_ne_nil (@Nat.toDigits_ne_nil n 10)
  have hd : d.isDigit = true := isDigit_of_mem_decimal (hds ▸ mem_cons_self)
  have hplus : d ≠ '+' := ne_of_isDigit hd (by decide)
  have hminus : d ≠ '-' := ne_of_isDigit hd (by decide)
  rcases hsign with rfl | rfl
  · simp [hds, hplus, hminus]
  · simp

theorem parseInt64_toString {v : Int} (hlow : -2 ^ 63 ≤ v) (hhigh : v < 2 ^ 63) :
    parseInt64 (toString v).toList = some v := by
  obtain ⟨sign, n, htext, hv⟩ := toList_toString_int v
  have hsign := take_sign (hv.imp And.left And.left) n []
  have hval : (if sign = ['-'] then -(n : Int) else n) = v := by
    rcases hv with ⟨rfl, hv⟩ | ⟨rfl, hv⟩
    · simpa using hv
    · simpa using hv
  rw [append_nil] at hsign
  simp only [parseInt64, htext, hsign, drop_left, Nat.toDigits_ne_nil, all_isDigit_toDigits,
    not_true, or_self, if_false, digitsToNat_toDigits, hval]
  exact if_pos ⟨hlow, hhigh⟩

theorem isSpace_of_isDigit (h : c.isDigit = true) : isSpace c = false := by
  have := toNat_of_isDigit h
  simp only [isSpace, Bool.or_eq_false_iff, Bool.and_eq_false_iff, decide_eq_false_iff_not,
    beq_eq_false_iff_ne]
  omega

theorem head_toString_int (v : Int) :
    ∃ c cs, (toString v).toList = c :: cs ∧ c ≠ '\n' ∧ isSpace c = false := by
  obtain ⟨sign, n, htext, hv⟩ := toList_toString_int v
  rcases hv with ⟨rfl, -⟩ | ⟨rfl, -⟩
  · obtain ⟨d, ds, hds⟩ := exists_cons_of_ne_nil (@Nat.toDigits_ne_nil n 10)
    have hd : d.isDigit = true := isDigit_of_mem_decimal (hds ▸ mem_cons_self)
    exact ⟨d, ds, by rw [htext, nil_append, hds], ne_of_isDigit hd (by decide),
      isSpace_of_isDigit hd⟩
  · exact ⟨'-', Nat.toDigits 10 n, htext, by decide, by decide⟩

theorem skipSpace_toString (v : Int) (rest : List Char) :
    skipSpace ((toString v).toList ++ rest) = .ok ((toString v).toList ++ rest) := by
  obtain ⟨c, cs, htext, hc, hspace⟩ := head_toString_int v
  rw [htext, cons_append, skipSpace, if_neg hc, if_neg (by simp [hspace])]

theorem scanInt_toString {v : Int} (hlow : -2 ^ 63 ≤ v) (hhigh : v < 2 ^ 63) {rest : List Char}
    (hrest : rest.takeWhile Char.isDigit = []) :
    scanInt ((toString v).toList ++ rest) = .ok (v, rest) := by
  have hskip := skipSpace_toString v rest
  obtain ⟨sign, n, htext, hv⟩ := toList_toString_int v
  have hsign := take_sign (hv.imp And.left And.left) n rest
  have hval : (if sign = ['-'] then -(n : Int) else n) = v := by
    rcases hv with ⟨rfl, hv⟩ | ⟨rfl, hv⟩
    · simpa using hv
    · simpa using hv
  have hdigits : (Nat.toDigits 10 n ++ rest).takeWhile Char.isDigit = Nat.toDigits 10 n := by
    rw [takeWhile_append_of_pos fun c hc => isDigit_of_mem_decimal hc, hrest, append_nil]
  rw [htext] at hskip ⊢
  have hbody : (sign ++ Nat.toDigits 10 n ++ rest).drop sign.length =
      Nat.toDigits 10 n ++ rest := by
    rw [append_assoc, drop_left]
  simp only [scanInt, hskip, bind, Except.bind, hsign, hbody, hdigits, append_eq_nil_iff,
    Nat.toDigits_ne_nil, false_and, if_false, digitsToNat_toDigits, hval, drop_left]
  exact if_pos ⟨hlow, hhigh⟩

theorem scanInt_range {input rest : List Char} {v : Int} (h : scanInt input = .ok (v, rest)) :
    -2 ^ 63 ≤ v ∧ v < 2 ^ 63 := by
  have hguard : ∀ {w : Int} {r : List Char} {e : String},
      (if -2 ^ 63 ≤ w ∧ w < 2 ^ 63 then Except.ok (w, r) else .error e) = .ok (v, rest) →
        -2 ^ 63 ≤ v ∧ v < 2 ^ 63 := by
    intro w r e hw
    by_cases hrange : -2 ^ 63 ≤ w ∧ w < 2 ^ 63
    · rw [if_pos hrange] at hw
      cases hw
      exact hrange
    · rw [if_neg hrange] at hw
      cases hw
  simp only [scanInt, bind, Except.bind] at h
  split at h
  · cases h
  split at h
  · cases h
  · split at h
    · cases h
    · exact hguard h

/-! ## P2P topics -/

def p2pTopic (lo hi : Int) : String := "p2p_" ++ toString lo ++ "_" ++ toString hi

theorem splitUnderscore_p2pTopic (lo hi : Int) :
    splitUnderscore (p2pTopic lo hi) =
      ["p2p".toList, (toString lo).toList, (toString hi).toList] := by
  have hnone : ∀ v : Int, '_' ∉ (toString v).toList := by
    intro v hmem
    obtain ⟨sign, n, htext, hv⟩ := toList_toString_int v
    rw [htext, mem_append] at hmem
    rcases hmem with hsign | hdigit
    · rcases hv with ⟨rfl, -⟩ | ⟨rfl, -⟩
      · simp at hsign
      · simp at hsign
    · exact absurd (isDigit_of_mem_decimal hdigit) (by decide)
  have hjoin : (p2pTopic lo hi).toList =
      ['_'].intercalate ["p2p".toList, (toString lo).toList, (toString hi).toList] := by
    simp only [p2pTopic, String.toList_append]
    simp [intercalate]
  rw [splitUnderscore, hjoin, splitOn_intercalate]
  · intro part hpart
    simp only [mem_cons, List.not_mem_nil, or_false] at hpart
    rcases hpart with rfl | rfl | rfl
    · decide
    · exact hnone lo
    · exact hnone hi
  · simp

theorem extractUserIDs_p2pTopic {lo hi : Int} (hlo : -2 ^ 63 ≤ lo ∧ lo < 2 ^ 63)
    (hhi : -2 ^ 63 ≤ hi ∧ hi < 2 ^ 63) :
    extractUserIDsFromP2PTopic (p2pTopic lo hi) = .ok (lo, hi) := by
  have hfirst : scanInt ((toString lo).toList ++ ' ' :: (toString hi).toList) =
      .ok (lo, ' ' :: (toString hi).toList) :=
    scanInt_toString hlo.1 hlo.2 (by rw [takeWhile_cons]; rfl)
  have hspace : matchSpace (' ' :: (toString hi).toList) = .ok (toString hi).toList := by
    obtain ⟨c, cs, htext, -, hc⟩ := head_toString_int hi
    rw [htext, matchSpace, if_neg (by decide), if_pos (by decide), dropWhile_cons, hc]
    rfl
  have hsecond : scanInt (toString hi).toList = .ok (hi, []) := by
    have h := scanInt_toString hhi.1 hhi.2
      (show ([] : List Char).takeWhile Char.isDigit = [] from rfl)
    rwa [append_nil] at h
  simp only [extractUserIDsFromP2PTopic, splitUnderscore_p2pTopic, hfirst, hspace, hsecond, bind,
    Except.bind, wrapErr]

theorem bind_eq_ok {ε α β : Type} {x : Except ε α} {f : α → Except ε β} {b : β} :
    (x >>= f) = .ok b ↔ ∃ a, x = .ok a ∧ f a = .ok b := by
  cases x with
  | error e | ok a => simp [bind, Except.bind]

theorem extractUserIDs_range {uid1 uid2 : Int}
    (h : extractUserIDsFromP2PTopic topic = .ok (uid1, uid2)) :
    (-2 ^ 63 ≤ uid1 ∧ uid1 < 2 ^ 63) ∧ (-2 ^ 63 ≤ uid2 ∧ uid2 < 2 ^ 63) := by
  unfold extractUserIDsFromP2PTopic at h
  split at h
  · obtain ⟨first, hfirst, h⟩ := bind_eq_ok.mp (wrapErr_eq_ok.mp h)
    obtain ⟨rest, -, h⟩ := bind_eq_ok.mp h
    obtain ⟨second, hsecond, h⟩ := bind_eq_ok.mp h
    cases h
    exact ⟨scanInt_range hfirst, scanInt_range hsecond⟩
  · cases h

/-! ## Normalized topics -/

theorem parseTopicType_p2pTopic (lo hi : Int) : parseTopicType (p2pTopic lo hi) = .p2p := by
  have hp : ∀ rest : String, hasPrefix ("p2p_" ++ rest) "p2p_" = true := by
    intro rest
    simp [hasPrefix]
  rw [p2pTopic, String.append_assoc, String.append_assoc]
  simp [parseTopicType, hp]

theorem normalizeTopic_cases (h : normalizeTopic raw = .ok topic) :
    (∃ lo hi, lo ≤ hi ∧ topic = p2pTopic lo hi ∧
      extractUserIDsFromP2PTopic topic = .ok (lo, hi)) ∨
    parseTopicType topic = .group ∨ parseTopicType topic = .system := by
  unfold normalizeTopic at h
  cases hraw : parseTopicType raw with
  | p2p =>
    rw [hraw] at h
    obtain ⟨ids, hids, h⟩ := bind_eq_ok.mp h
    obtain ⟨h1, h2⟩ := extractUserIDs_range hids
    by_cases hlt : ids.1 > ids.2
    · simp only [hlt, if_true, Except.ok.injEq] at h
      exact .inl ⟨ids.2, ids.1, Int.le_of_lt hlt, h.symm, h ▸ extractUserIDs_p2pTopic h2 h1⟩
    · simp only [hlt, if_false, Except.ok.injEq] at h
      exact .inl ⟨ids.1, ids.2, Int.not_lt.mp hlt, h.symm, h ▸ extractUserIDs_p2pTopic h1 h2⟩
  | group =>
    rw [hraw] at h
    cases h
    exact .inr (.inl hraw)
  | system =>
    rw [hraw] at h
    cases h
    exact .inr (.inr hraw)
  | unknown =>
    rw [hraw] at h
    cases h

theorem parseTopicType_normalizeTopic {canonical : String}
    (h : normalizeTopic topic = .ok canonical) : parseTopicType canonical ≠ .unknown := by
  rcases normalizeTopic_cases h with ⟨lo, hi, -, rfl, -⟩ | hgroup | hsystem
  · simp [parseTopicType_p2pTopic]
  · simp [hgroup]
  · simp [hsystem]

theorem normalizeTopic_normalized (h : normalizeTopic raw = .ok topic) :
    normalizeTopic topic = .ok topic := by
  rcases normalizeTopic_cases h with ⟨lo, hi, hle, rfl, hids⟩ | hgroup | hsystem
  · simp only [normalizeTopic, parseTopicType_p2pTopic, hids, bind, Except.bind, gt_iff_lt,
      if_neg (Int.not_lt.mpr hle)]
    rfl
  · simp only [normalizeTopic, hgroup]
  · simp only [normalizeTopic, hsystem]

theorem mem_of_canAccessTopic {a : TopicAuthorizer} {userID : Int}
    (h : normalizeTopic raw = .ok topic) (htype : parseTopicType topic = .p2p)
    (haccess : a.canAccessTopic userID topic = .ok ()) {uid1 uid2 : Int}
    (hids : extractUserIDsFromP2PTopic topic = .ok (uid1, uid2)) :
    userID = uid1 ∨ userID = uid2 := by
  unfold TopicAuthorizer.canAccessTopic at haccess
  split at haccess
  · cases haccess
  simp only [normalizeTopic_normalized h, htype, hids] at haccess
  by_contra hnot
  rw [if_pos (not_or.mp hnot)] at haccess
  cases haccess

end NonokaIM
