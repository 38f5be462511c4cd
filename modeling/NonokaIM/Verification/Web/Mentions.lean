import NonokaIM.Model.Mentions

/-! Mentions are found and rendered by two different expressions, which find the same words. -/

namespace NonokaIM.Web

open RegExp List TextSegment

section

variable (text : JsString)

def IsWord (k : ℕ) : Prop := text[k]?.any isAt = true ∧ 0 < runLength isNameUnit text (k + 1)
  deriving Decidable

def wordEnd (k : ℕ) : ℕ := k + 1 + runLength isNameUnit text (k + 1)

def AtBoundary (k : ℕ) : Prop := k = 0 ∨ text[k - 1]?.any isSpaceUnit = true
  deriving Decidable

def wordMatch (index k : ℕ) : Match := ⟨index, wordEnd text k, some (k + 1, wordEnd text k)⟩

variable {text} {k : ℕ}

theorem wordEnd_le (h : IsWord text k) : wordEnd text k ≤ text.length := by
  refine runLength_le ?_
  by_contra hlt
  have hzero : runLength isNameUnit text (k + 1) = 0 := by
    refine runLength_of_not ?_
    rw [getElem?_eq_none_iff.mpr (by omega)]
    exact Bool.false_ne_true
  exact absurd h.2 (by omega)

theorem lt_wordEnd : k < wordEnd text k := by
  unfold wordEnd
  omega

theorem isNameUnit_inside {j : ℕ} (hkj : k < j) (hj : j < wordEnd text k) :
    text[j]?.any isNameUnit = true := by
  have hlt : j - (k + 1) < runLength isNameUnit text (k + 1) := by
    unfold wordEnd at hj
    omega
  have hany := any_of_lt_runLength hlt
  rwa [show k + 1 + (j - (k + 1)) = j by omega] at hany

theorem not_special_of_isNameUnit {c : Option UInt16} (h : c.any isNameUnit = true) :
    ¬ c.any isAt = true ∧ ¬ c.any isSpaceUnit = true := by
  cases c with
  | none => exact absurd h Bool.false_ne_true
  | some c =>
    simp only [Option.any_some, isNameUnit, Bool.and_eq_true, Bool.not_eq_true'] at h ⊢
    simp [h]

theorem not_space_of_isWord (h : IsWord text k) : ¬ text[k]?.any isSpaceUnit = true := by
  intro hspace
  have hat := h.1
  cases hc : text[k]? with
  | none => simp [hc] at hat
  | some c =>
    rw [hc, Option.any_some] at hat hspace
    rw [show c = 0x40 by simpa [isAt] using hat] at hspace
    exact absurd hspace (by decide)

end

section

variable (text : JsString)

theorem head?_reaches_group (pos : ℕ) :
    (reaches text (.group (.plus isNameUnit)) pos).head? =
      if 0 < runLength isNameUnit text pos then
        some (pos + runLength isNameUnit text pos, some (pos, pos + runLength isNameUnit text pos))
      else none := by
  rw [reaches, reaches, map_map, head?_map, head?_reverse, getLast?_range']
  split
  · rw [if_neg (by omega)]
    rfl
  · rw [if_pos (by omega)]
    simp only [Option.map_some, Function.comp_apply]
    congr 2
    · omega
    · congr 2
      omega

theorem head?_reaches_segment (k : ℕ) :
    (reaches text segmentRegex k).head? =
      if IsWord text k then some (wordEnd text k, some (k + 1, wordEnd text k)) else none := by
  rw [segmentRegex, reaches, reaches]
  by_cases hat : text[k]?.any isAt = true
  · rw [if_pos hat, flatMap_singleton, head?_map, head?_reaches_group]
    split
    · rename_i hrun
      rw [if_pos ⟨hat, hrun⟩]
      rfl
    · rename_i hrun
      rw [if_neg fun h => hrun h.2]
      rfl
  · rw [if_neg hat, if_neg fun h => hat h.1]
    rfl

theorem matchAt_segment (k : ℕ) :
    matchAt segmentRegex text k = if IsWord text k then some (wordMatch text k k) else none := by
  rw [matchAt, head?_reaches_segment]
  split
  · rfl
  · rfl

theorem matchAt_extract (k : ℕ) :
    matchAt extractRegex text k =
      if k = 0 ∧ IsWord text 0 then some (wordMatch text 0 0)
      else if text[k]?.any isSpaceUnit = true ∧ IsWord text (k + 1) then
        some (wordMatch text k (k + 1))
      else none := by
  have hreaches : reaches text extractRegex k =
      (if k = 0 then reaches text segmentRegex k else []) ++
        if text[k]?.any isSpaceUnit = true then reaches text segmentRegex (k + 1) else [] := by
    rw [extractRegex, reaches, reaches, reaches, reaches, flatMap_append]
    congr 1
    · split
      · simp [segmentRegex]
      · rfl
    · split
      · simp [segmentRegex]
      · rfl
  rw [matchAt, hreaches, head?_append]
  by_cases hzero : k = 0 ∧ IsWord text 0
  · rw [if_pos hzero]
    obtain ⟨rfl, hword⟩ := hzero
    rw [if_pos rfl, head?_reaches_segment, if_pos hword]
    rfl
  · rw [if_neg hzero]
    have hnone : (if k = 0 then reaches text segmentRegex k else []).head? = none := by
      split
      · rename_i hk
        subst k
        rw [head?_reaches_segment, if_neg fun h => hzero ⟨rfl, h⟩]
      · rfl
    rw [hnone, Option.none_or]
    split
    · rename_i hspace
      rw [head?_reaches_segment]
      by_cases hword : IsWord text (k + 1)
      · rw [if_pos hword, if_pos ⟨hspace, hword⟩]
        rfl
      · rw [if_neg hword, if_neg fun h => hword h.2]
        rfl
    · rename_i hspace
      rw [if_neg fun h => hspace h.1]
      rfl

variable {text}

theorem matchAt_segment_some {k : ℕ} {m : Match} (h : matchAt segmentRegex text k = some m) :
    IsWord text k ∧ m = wordMatch text k k := by
  rw [matchAt_segment] at h
  split at h
  · exact ⟨‹_›, (Option.some.inj h).symm⟩
  · cases h

theorem matchAt_extract_some {k : ℕ} {m : Match} (h : matchAt extractRegex text k = some m) :
    ∃ j, IsWord text j ∧ AtBoundary text j ∧ (k = j ∨ k + 1 = j) ∧ m = wordMatch text k j := by
  rw [matchAt_extract] at h
  split at h
  · rename_i hzero
    obtain ⟨rfl, hword⟩ := hzero
    exact ⟨0, hword, .inl rfl, .inl rfl, (Option.some.inj h).symm⟩
  · split at h
    · rename_i hspace
      exact ⟨k + 1, hspace.2, .inr hspace.1, .inr rfl, (Option.some.inj h).symm⟩
    · cases h

theorem advances_segment : Advances segmentRegex text := by
  intro k m h
  obtain ⟨hword, rfl⟩ := matchAt_segment_some h
  exact ⟨lt_wordEnd, wordEnd_le hword⟩

theorem separate_segment : Separate segmentRegex text := by
  intro k m h j hkj hj
  obtain ⟨-, rfl⟩ := matchAt_segment_some h
  rw [matchAt_segment, if_neg]
  exact fun hword => (not_special_of_isNameUnit (isNameUnit_inside hkj hj)).1 hword.1

theorem advances_extract : Advances extractRegex text := by
  intro k m h
  obtain ⟨j, hword, -, hkj, rfl⟩ := matchAt_extract_some h
  have hlt : j < wordEnd text j := lt_wordEnd
  exact ⟨by change k < wordEnd text j; omega, wordEnd_le hword⟩

theorem separate_extract : Separate extractRegex text := by
  intro k m h i hki hi
  obtain ⟨j, hword, -, hkj, rfl⟩ := matchAt_extract_some h
  -- within the match there is the `@`, and then the name
  have hspace : ¬ text[i]?.any isSpaceUnit = true := by
    by_cases hij : i = j
    · exact hij ▸ not_space_of_isWord hword
    · exact (not_special_of_isNameUnit (isNameUnit_inside (by omega) hi)).2
  rw [matchAt_extract, if_neg (by omega), if_neg fun hs => hspace hs.1]

end

section

variable {toLowerCase : JsString → JsString} {text : JsString} {members : List MentionMember}

variable (toLowerCase text members) in
def wordMember (k : ℕ) : Option ℕ :=
  byName toLowerCase members (slice text (k + 1) (wordEnd text k))

variable (toLowerCase text members) in
/-- A word at a boundary names the member with this id. -/
def Mentions (id : ℕ) : Prop :=
  ∃ k, IsWord text k ∧ AtBoundary text k ∧ wordMember toLowerCase text members k = some id

theorem mem_addId {ids : List ℕ} {named : Option ℕ} {id : ℕ} :
    id ∈ addId ids named ↔ id ∈ ids ∨ named = some id := by
  cases named with
  | none => simp [addId]
  | some n =>
    rw [addId, Option.some_inj]
    split
    · rename_i hn
      constructor
      · exact .inl
      · rintro (hmem | rfl)
        · exact hmem
        · exact hn
    · rw [mem_append, mem_singleton, eq_comm]

theorem mem_foldl_addId {α : Type*} (named : α → Option ℕ) (ms : List α) (ids : List ℕ) (id : ℕ) :
    id ∈ ms.foldl (fun ids m => addId ids (named m)) ids ↔
      id ∈ ids ∨ ∃ m ∈ ms, named m = some id := by
  induction ms generalizing ids with
  | nil => simp
  | cons m ms ih =>
    rw [foldl_cons, ih, mem_addId, or_assoc]
    simp

theorem mem_extractMentionIds (hmembers : members ≠ []) (id : ℕ) :
    id ∈ extractMentionIds toLowerCase text members ↔ Mentions toLowerCase text members id := by
  rw [extractMentionIds, if_neg hmembers, mem_foldl_addId,
    allMatches_eq advances_extract separate_extract]
  simp only [not_mem_nil, false_or]
  constructor
  · rintro ⟨m, hm, hid⟩
    obtain ⟨k, -, hk⟩ := mem_filterMap.mp hm
    obtain ⟨j, hword, hboundary, -, rfl⟩ := matchAt_extract_some hk
    exact ⟨j, hword, hboundary, hid⟩
  · rintro ⟨j, hword, hboundary, hid⟩
    have hend := wordEnd_le hword
    have hlt : j < wordEnd text j := lt_wordEnd
    -- the match starts at the white space, unless the word starts the text
    by_cases hzero : j = 0
    · subst j
      refine ⟨wordMatch text 0 0, mem_filterMap.mpr ⟨0, by simp, ?_⟩, hid⟩
      rw [matchAt_extract, if_pos ⟨rfl, hword⟩]
    · have hspace := hboundary.resolve_left hzero
      refine ⟨wordMatch text (j - 1) j, mem_filterMap.mpr ⟨j - 1, ?_, ?_⟩, hid⟩
      · rw [mem_range]
        omega
      · have hj : j - 1 + 1 = j := by omega
        have hnot : ¬ (j - 1 = 0 ∧ IsWord text 0) := by
          rintro ⟨hfirst, hword0⟩
          rw [hfirst] at hspace
          exact not_space_of_isWord hword0 hspace
        rw [matchAt_extract, hj, if_neg hnot, if_pos ⟨hspace, hword⟩]

theorem mem_segmentsFrom (last : ℕ) (ms : List Match) (id : ℕ) :
    some id ∈ (segmentsFrom toLowerCase text members last ms).map mentionedUserId ↔
      ∃ m ∈ ms, AtBoundary text m.index ∧ namedMember toLowerCase text members m = some id := by
  induction ms generalizing last with
  | nil =>
    rw [segmentsFrom]
    split <;> simp
  | cons m ms ih =>
    rw [segmentsFrom]
    simp only [mem_cons, exists_eq_or_imp]
    split
    · rename_i hinside
      have hnot : ¬ AtBoundary text m.index := by
        rintro (hzero | hspace)
        · omega
        · exact hinside.2 hspace
      rw [ih]
      simp [hnot]
    · rename_i hinside
      have hboundary : AtBoundary text m.index := by
        by_cases hzero : m.index = 0
        · exact .inl hzero
        · exact .inr (Decidable.of_not_not fun hspace => hinside ⟨by omega, hspace⟩)
      cases hnamed : namedMember toLowerCase text members m with
      | none =>
        simp only [ih]
        simp
      | some n =>
        have hplain : some id ∉ (if last < m.index then
            [({ text := slice text last m.index } : TextSegment)] else []).map
              mentionedUserId := by
          split <;> simp
        rw [map_append, mem_append, map_cons, mem_cons, ih]
        simp [hplain, hboundary, eq_comm]

theorem flatten_segmentsFrom {last i : ℕ} {ms : List Match} (hms : Spread text.length i ms)
    (hlast : last ≤ i) :
    ((segmentsFrom toLowerCase text members last ms).map TextSegment.text).flatten =
      text.drop last := by
  induction ms generalizing last i with
  | nil =>
    rw [segmentsFrom]
    split
    · simp
    · rw [drop_eq_nil_of_le (by omega)]
      rfl
  | cons m ms ih =>
    obtain ⟨hi, hstop, hlength, hspread⟩ := hms
    have hskip : last ≤ m.stop := by omega
    rw [segmentsFrom]
    split
    · exact ih hspread hskip
    cases hnamed : namedMember toLowerCase text members m with
    | none => exact ih hspread hskip
    | some n =>
      have hplain : ((if last < m.index then
          [({ text := slice text last m.index } : TextSegment)] else []).map
            TextSegment.text).flatten = slice text last m.index := by
        split
        · simp
        · rw [slice_of_le (by omega)]
          rfl
      rw [map_append, flatten_append, hplain, map_cons, flatten_cons,
        ih hspread (Nat.le_refl _), slice_append_drop hstop,
        slice_append_drop (by omega)]

theorem mem_segments (id : ℕ) :
    some id ∈ (segmentsFrom toLowerCase text members 0 (allMatches segmentRegex text)).map
        mentionedUserId ↔ Mentions toLowerCase text members id := by
  rw [mem_segmentsFrom, allMatches_eq advances_segment separate_segment]
  constructor
  · rintro ⟨m, hm, hboundary, hid⟩
    obtain ⟨k, -, hk⟩ := mem_filterMap.mp hm
    obtain ⟨hword, rfl⟩ := matchAt_segment_some hk
    exact ⟨k, hword, hboundary, hid⟩
  · rintro ⟨k, hword, hboundary, hid⟩
    have hend := wordEnd_le hword
    have hlt : k < wordEnd text k := lt_wordEnd
    refine ⟨wordMatch text k k, mem_filterMap.mpr ⟨k, ?_, ?_⟩, hboundary, hid⟩
    · rw [mem_range]
      omega
    · rw [matchAt_segment, if_pos hword]

end

/-- What is rendered is the text, and the members marked in it are those found in it. -/
theorem mentions_agree (toLowerCase : JsString → JsString) (text : JsString)
    (members : List MentionMember) :
    ((segmentMentions toLowerCase text members).map TextSegment.text).flatten = text ∧
      ∀ id, some id ∈ (segmentMentions toLowerCase text members).map mentionedUserId ↔
          id ∈ extractMentionIds toLowerCase text members := by
  by_cases hmembers : members = []
  · simp [segmentMentions, extractMentionIds, hmembers]
  have hflatten : ((segmentsFrom toLowerCase text members 0
      (allMatches segmentRegex text)).map TextSegment.text).flatten = text :=
    flatten_segmentsFrom (spread_allMatches advances_segment) (Nat.le_refl 0)
  have hmarked : ∀ id, some id ∈ (segmentsFrom toLowerCase text members 0
      (allMatches segmentRegex text)).map mentionedUserId ↔
        id ∈ extractMentionIds toLowerCase text members :=
    fun id => (mem_segments id).trans (mem_extractMentionIds hmembers id).symm
  rw [segmentMentions, if_neg hmembers]
  dsimp only
  split
  · exact ⟨hflatten, hmarked⟩
  rename_i hempty
  rw [length_eq_zero_iff.mp (Nat.eq_zero_of_not_pos hempty)] at hmarked
  refine ⟨by simp, fun id => ?_⟩
  rw [← hmarked]
  simp

end NonokaIM.Web
