import Mathlib.Algebra.GroupWithZero.Nat
import NonokaIM.Model.ToolsBackend

/-! The results of the tools that read messages, cut at byte positions. -/

namespace NonokaIM

open Utf8 List InboxMessage MessageTools ToolReply

/-! ## The budget -/

inductive Shortened {α : Type} : List (List α) → List (List α) → Prop where
  | nil (values : List (List α)) : Shortened [] values
  | last {s v : List α} (values : List (List α)) : s <+: v → Shortened [s] (v :: values)
  | cons (v : List α) {out values : List (List α)} :
      Shortened out values → Shortened (v :: out) (v :: values)

section

variable (maxChars : ℕ)

theorem boundFrom_full (values : List (List UInt8)) : boundFrom maxChars maxChars values = [] := by
  cases values with
  | nil => rfl
  | cons value values => exact if_pos (Nat.le_refl _)

theorem shortened_boundFrom (used : ℕ) (values : List (List UInt8)) :
    Shortened (boundFrom maxChars used values) values := by
  induction values generalizing used with
  | nil => exact .nil []
  | cons value values ih =>
    rw [boundFrom]
    split
    · exact .nil _
    by_cases hfits : value.length ≤ maxChars - used
    · rw [take_of_length_le hfits]
      exact .cons value (ih _)
    · -- the cut uses up the budget, and nothing follows
      have hused : used + (value.take (maxChars - used)).length = maxChars := by
        rw [length_take]
        omega
      dsimp only
      rw [hused, boundFrom_full maxChars]
      have hstart := take_prefix (maxChars - used) value
      exact .last values hstart

variable {maxChars}

theorem length_boundFrom_le {used : ℕ} (hused : used ≤ maxChars) (values : List (List UInt8)) :
    used + ((boundFrom maxChars used values).map length).sum ≤ maxChars := by
  induction values generalizing used with
  | nil => exact hused
  | cons value values ih =>
    rw [boundFrom]
    split
    · exact hused
    have hnext : used + (value.take (maxChars - used)).length ≤ maxChars := by
      rw [length_take]
      omega
    have hrest := ih hnext
    rw [map_cons, sum_cons]
    omega

end

/-! ## Lines -/

def InboxMessage.line (row : InboxMessage) : List UInt8 :=
  toolHeader row.senderID row.timestamp ++ row.toolContent

theorem valid_line (row : InboxMessage) : Valid row.line :=
  (valid_encode _).append (valid_repair replacement (valid_encode _) row.content)

/-- Where the content of a row is cut. -/
def InboxMessage.lineEnd (row : InboxMessage) : ℕ :=
  (toolHeader row.senderID row.timestamp).length + 1200

theorem formatted_eq (row : InboxMessage) : row.formatted = row.line.take row.lineEnd := by
  rw [line, lineEnd, take_append, Nat.add_sub_cancel_left, take_of_length_le (by omega)]
  rfl

theorem valid_take_formatted_iff (row : InboxMessage) (room : ℕ) :
    Valid (row.formatted.take room) ↔ CutsBetween row.line (min row.lineEnd room) := by
  rw [formatted_eq, take_take, valid_take_iff (valid_line row), Nat.min_comm]

/-- The bytes that are used up before the row at `i`. -/
def usedBefore (rows : List InboxMessage) (i : ℕ) : ℕ :=
  ((rows.take i).map fun row => min row.line.length row.lineEnd).sum

/-- With `used` bytes already there: a row that the budget reaches is cut between two characters of
its line, after 1200 bytes of content or where the budget ends. -/
def CutsBetweenCharacters (used : ℕ) (rows : List InboxMessage) : Prop :=
  ∀ (i : ℕ) (row : InboxMessage), rows[i]? = some row → used + usedBefore rows i < 8000 →
    CutsBetween row.line (min row.lineEnd (8000 - (used + usedBefore rows i)))

theorem cutsBetweenCharacters_nil (used : ℕ) : CutsBetweenCharacters used [] :=
  fun _ _ hrow => absurd hrow (by simp)

theorem cutsBetweenCharacters_cons (used : ℕ) (row : InboxMessage) (rows : List InboxMessage) :
    CutsBetweenCharacters used (row :: rows) ↔
      (used < 8000 → CutsBetween row.line (min row.lineEnd (8000 - used))) ∧
      CutsBetweenCharacters (used + min row.line.length row.lineEnd) rows := by
  have hnext : ∀ i, used + usedBefore (row :: rows) (i + 1) =
      used + min row.line.length row.lineEnd + usedBefore rows i := by
    intro i
    rw [usedBefore, take_succ_cons, map_cons, sum_cons, ← Nat.add_assoc]
    rfl
  constructor
  · intro h
    refine ⟨fun hroom => h 0 row rfl hroom, fun i other hi hroom => ?_⟩
    rw [← hnext] at hroom ⊢
    exact h (i + 1) other hi hroom
  · rintro ⟨hfirst, hrest⟩ i other hi hroom
    cases i with
    | zero =>
      obtain rfl := Option.some.inj hi
      exact hfirst hroom
    | succ i =>
      rw [hnext] at hroom ⊢
      exact hrest i other hi hroom

theorem cutsBetweenCharacters_of_full {used : ℕ} (h : 8000 ≤ used) (rows : List InboxMessage) :
    CutsBetweenCharacters used rows :=
  fun _ _ _ hroom => absurd hroom (by omega)

theorem valid_boundFrom_iff (used : ℕ) (rows : List InboxMessage) :
    (∀ s ∈ boundFrom 8000 used (rows.map formatted), Valid s) ↔
      CutsBetweenCharacters used rows := by
  induction rows generalizing used with
  | nil => exact iff_of_true nofun (cutsBetweenCharacters_nil used)
  | cons row rows ih =>
    rw [map_cons, boundFrom]
    split
    · next hfull => exact iff_of_true nofun (cutsBetweenCharacters_of_full hfull _)
    next hroom =>
    have hlength : row.formatted.length = min row.line.length row.lineEnd := by
      rw [formatted_eq, length_take, Nat.min_comm]
    rw [forall_mem_cons, valid_take_formatted_iff, cutsBetweenCharacters_cons, ih,
      imp_iff_right (by omega), length_take, hlength]
    refine and_congr_right fun _ => ?_
    by_cases hfits : min row.line.length row.lineEnd ≤ 8000 - used
    · rw [Nat.min_eq_right hfits]
    · -- the cut uses up the budget, and nothing follows
      exact iff_of_true (cutsBetweenCharacters_of_full (by omega) rows)
        (cutsBetweenCharacters_of_full (by omega) rows)

/-! ## Calls -/

inductive ToolCall where
  | search (query : String) (limit : Int)
  | context (limit : Int)

namespace MessageTools

variable (b : MessageTools) (rc : RunContext) (fault : PullFault)
  (toLower : List UInt8 → List UInt8)

def call : ToolCall → ToolReply
  | .search query limit => b.searchMessages rc fault toLower query limit
  | .context limit => b.conversationContext rc fault limit

def selected : ToolCall → List InboxMessage
  | .search query limit =>
    match b.messages rc fault 100 with
    | .error _ => []
    | .ok rows =>
      let query := toLower (encode (trimSpace query.toList))
      let found := rows.reverse.filter fun row => query <:+: toLower row.toolContent
      found.take limit.toNat
  | .context limit =>
    match b.messages rc fault limit with
    | .error _ => []
    | .ok rows => rows

end MessageTools

section

variable {b : MessageTools} {rc : RunContext} {fault : PullFault}
  {toLower : List UInt8 → List UInt8} {call : ToolCall} {out : List (List UInt8)}

theorem call_values (h : b.call rc fault toLower call = .values out) :
    out =
      boundToolResults ((b.selected rc fault toLower call).map formatted) 8000 := by
  cases call with
  | search query limit =>
    rw [call, searchMessages] at h
    rw [selected]
    cases haccess : b.access rc with
    | error e => simp [haccess] at h
    | ok storage =>
      cases hrows : b.messages rc fault 100 with
      | error e => simp [haccess, hrows] at h
      | ok rows =>
        simp only [haccess, hrows] at h
        split at h
        · cases h
        · exact (values.inj h).symm
  | context limit =>
    rw [call, conversationContext] at h
    rw [selected]
    cases hrows : b.messages rc fault limit with
    | error e => simp [hrows] at h
    | ok rows =>
      simp only [hrows] at h
      exact (values.inj h).symm

end

/-- What a tool returns has at most 8000 bytes and is a start of the formatted messages with the
last one shortened at most; the strings are texts exactly if every row that it reaches is cut
between two characters. -/
theorem tool_results_iff (b : MessageTools) (rc : RunContext) (fault : PullFault)
    (toLower : List UInt8 → List UInt8) (call : ToolCall) (out : List (List UInt8))
    (h : b.call rc fault toLower call = .values out) :
    ((∀ s ∈ out, Valid s) ↔ CutsBetweenCharacters 0 (b.selected rc fault toLower call)) ∧
      (out.map length).sum ≤ 8000 ∧
      Shortened out ((b.selected rc fault toLower call).map formatted) := by
  obtain rfl := call_values h
  have hshort := shortened_boundFrom 8000 0 ((b.selected rc fault toLower call).map formatted)
  have hlength := length_boundFrom_le (Nat.zero_le 8000)
    ((b.selected rc fault toLower call).map formatted)
  rw [Nat.zero_add] at hlength
  exact ⟨valid_boundFrom_iff 0 _, hlength, hshort⟩

/-! ## A message to the user -/

def botMessage (text : List Char) : InboxMessage where
  userID := 1
  msgID := 1
  topic := "p2p_1_2"
  senderID := 2
  msgType := 0
  content := encode text
  timestamp := 7
  topicSeq := 1
  clientMsgID := ""
  createdAt := 0

def botTools (text : List Char) : MessageTools where
  storage := some { inboxes := ⟨[botMessage text], pairwise_singleton _ _⟩ }
  authorizer := some ⟨none⟩

def botRun : RunContext where
  actorUserID := 1
  botID := 2
  topic := "p2p_1_2"

variable (text : List Char)

theorem messages_botTools : (botTools text).messages botRun {} 10 = .ok [botMessage text] := by
  rfl

theorem line_botMessage : (botMessage text).line = encode ("sender=2 time=7: ".toList ++ text) := by
  rw [line, toolContent, botMessage, repair_encode, encode_append]
  rfl

theorem length_formatted_botMessage : (botMessage text).formatted.length ≤ 8000 := by
  have hheader : (toolHeader 2 7).length = 17 := by decide
  change (toolHeader 2 7 ++ (botMessage text).toolContent.take 1200).length ≤ 8000
  rw [length_append, hheader, length_take]
  omega

theorem call_botTools :
    (botTools text).call botRun {} id (.context 10) = .values [(botMessage text).formatted] := by
  have hbound : boundToolResults [(botMessage text).formatted] 8000 =
      [(botMessage text).formatted] := by
    change [(botMessage text).formatted.take 8000] = _
    rw [take_of_length_le (length_formatted_botMessage text)]
  rw [call, conversationContext, messages_botTools]
  exact congrArg values hbound

theorem encode_letters (n : ℕ) : encode (replicate n 'a') = replicate n 0x61 := by
  induction n with
  | zero => rfl
  | succ n ih =>
    rw [replicate_succ, encode_cons, ih]
    rfl

theorem line_letters (n : ℕ) :
    (botMessage (replicate n 'a')).line = toolHeader 2 7 ++ replicate n 0x61 := by
  rw [line_botMessage, encode_append, encode_letters]
  rfl

/-- A content of 1201 letters loses the last of them. -/
theorem cut_message_valid :
    (botTools (replicate 1201 'a')).call botRun {} id (.context 10) =
        .values [(botMessage (replicate 1201 'a')).formatted] ∧
      (botMessage (replicate 1201 'a')).formatted =
        toolHeader 2 7 ++ replicate 1200 0x61 ∧
      ∀ s ∈ [(botMessage (replicate 1201 'a')).formatted], Valid s := by
  have hcall := call_botTools (replicate 1201 'a')
  have hheader : (toolHeader 2 7).length = 17 := by decide
  have hend : (botMessage (replicate 1201 'a')).lineEnd = 17 + 1200 :=
    congrArg (· + 1200) hheader
  refine ⟨hcall, ?_, (tool_results_iff _ _ _ _ _ _ hcall).1.mpr ?_⟩
  · rw [formatted_eq, line_letters, hend, ← hheader, take_length_add_append, take_replicate]
    rfl
  · refine (cutsBetweenCharacters_cons 0 _ []).mpr ⟨fun _ => ?_, cutsBetweenCharacters_nil _⟩
    intro b hb
    rw [hend, line_letters, getElem?_append_right (by omega), hheader, getElem?_replicate] at hb
    obtain rfl : 0x61 = b := Option.some.inj hb
    decide

/-- A content of 1199 letters and an `é`, which has two bytes. -/
def cutContent : List Char := replicate 1199 'a' ++ ['é']

theorem formatted_cutContent :
    (botMessage cutContent).formatted = toolHeader 2 7 ++ (replicate 1199 0x61 ++ [0xC3]) := by
  have hcontent : (botMessage cutContent).toolContent =
      replicate 1199 0x61 ++ [0xC3] ++ [0xA9] := by
    rw [toolContent, botMessage, repair_encode, cutContent, encode_append,
      encode_letters, append_assoc]
    rfl
  have hlength : (replicate 1199 (0x61 : UInt8) ++ [0xC3]).length = 1200 := by
    rw [length_append, length_replicate]
    rfl
  change toolHeader 2 7 ++ (botMessage cutContent).toolContent.take 1200 = _
  rw [hcontent, take_left' hlength]

/-- The cut after 1200 bytes goes through the `é`. -/
theorem result_cut_through_character :
    (botTools cutContent).call botRun {} id (.context 10) =
        .values [toolHeader 2 7 ++ (replicate 1199 0x61 ++ [0xC3])] ∧
      ¬ Valid (toolHeader 2 7 ++ (replicate 1199 0x61 ++ [0xC3])) := by
  have hline : (botMessage cutContent).line =
      toolHeader 2 7 ++ (replicate 1199 0x61 ++ [0xC3]) ++ [0xA9] := by
    rw [line_botMessage, cutContent, ← append_assoc, encode_append, encode_append,
      encode_letters, append_assoc, append_assoc, append_assoc]
    rfl
  have hend : (botMessage cutContent).lineEnd =
      (toolHeader 2 7 ++ (replicate 1199 0x61 ++ [0xC3])).length := by
    rw [length_append, length_append, length_replicate]
    rfl
  have hvalid : ¬ Valid (botMessage cutContent).formatted := by
    rw [formatted_eq, valid_take_iff (valid_line _), CutsBetween, hend, hline,
      getElem?_concat_length]
    exact fun hfirst => absurd (hfirst 0xA9 rfl) (by decide)
  rw [← formatted_cutContent]
  exact ⟨call_botTools cutContent, hvalid⟩

end NonokaIM
