import Mathlib.Data.List.Nodup
import Mathlib.Data.List.Perm.Subperm
import NonokaIM.Library.GuardedRun
import NonokaIM.Verification.Conversation.Rows

/-! # Interleaved upserts of one conversation

A message is lost when its insert meets the row of another one. -/

namespace NonokaIM

open DocumentStore GuardedRun List Option Summary

structure Incoming (userID : Int) where
  args : UpsertArgs
  fromOther : args.msg.senderID ≠ userID

structure UpsertRun where
  table : Conversations
  status : ℕ → UpsertStatus := fun _ => .start
  written : List ℕ := []

section

variable (userID : Int) (topic : String) (calls : List (Incoming userID))

def upsertStep (s : UpsertRun) (i : ℕ) : UpsertRun :=
  match calls[i]? with
  | none => s
  | some call =>
    let st := upsertStatement userID (call.args.inTopic topic) .none "" (s.status i) s.table
    { table := st.table
      status := Function.update s.status i st.status
      written := if st.wrote then s.written ++ [i] else s.written }

def unreadOf (table : Conversations) : ℕ :=
  ((conversationOf userID topic table).map Conversation.unreadCount).getD 0

def lastSeqOf (table : Conversations) : ℕ :=
  ((conversationOf userID topic table).map Conversation.lastSeq).getD 0

def seqOf (i : ℕ) : ℕ := (calls[i]?.map fun call => call.args.topicSeq).getD 0

def largestSeq (table : Conversations) : ℕ :=
  (calls.map fun call => call.args.topicSeq).foldr max (lastSeqOf userID topic table)

def HasConversations : Prop :=
  match parseTopicType topic with
  | .p2p => ∃ ids, extractUserIDsFromP2PTopic topic = .ok ids
  | .group => True
  | _ => False

/-- A statement that does not lose its message: an UPDATE in a topic with conversations, or an
INSERT that meets no row. -/
def LosesNothing (table : Conversations) : UpsertStatus → Prop
  | .start => HasConversations topic
  | .missed _ => conversationOf userID topic table = none
  | .returned _ => True

/-- A statement that writes the row: an UPDATE that meets it, or an INSERT that meets none. -/
def WritesRow (table : Conversations) : UpsertStatus → Prop
  | .start => HasConversations topic ∧ conversationOf userID topic table ≠ none
  | .missed _ => conversationOf userID topic table = none
  | .returned _ => False

/-- The next statement of call `i` writes the row. -/
def NextWrites (s : UpsertRun) (i : ℕ) : Prop :=
  i < calls.length ∧ WritesRow userID topic s.table (s.status i)

/-- The next statement of call `i` does not lose its message. -/
def NextLosesNothing (s : UpsertRun) (i : ℕ) : Prop :=
  i < calls.length → LosesNothing userID topic s.table (s.status i)

/-- The statement of call `i` after those of `before` writes the row, and none of `later` does. -/
def LastWrite (table : Conversations) (before : List ℕ) (i : ℕ) (later : List ℕ) : Prop :=
  NextWrites userID topic calls (run (upsertStep userID topic calls) { table } before) i ∧
    Along (upsertStep userID topic calls) (fun s j => ¬ NextWrites userID topic calls s j)
      (run (upsertStep userID topic calls) { table } (before ++ [i])) later

end

variable {userID : Int} {topic : String} {calls : List (Incoming userID)} {table : Conversations}

/-! ## One statement -/

/-- A statement that writes counts its message and sets the last number; any other leaves the row
as it is. -/
inductive StatementEffect (userID : Int) (topic : String) (args : UpsertArgs)
    (status : UpsertStatus) (table : Conversations) (st : Statement) : Prop where
  | wrote (hwrote : st.wrote = true) (hwrites : WritesRow userID topic table status)
      (hclosed : ∃ result, st.status = .returned result)
      (hunread : unreadOf userID topic st.table = unreadOf userID topic table + 1)
      (hlast : lastSeqOf userID topic st.table = args.topicSeq)
  | kept (hwrote : st.wrote = false) (hwrites : ¬ WritesRow userID topic table status)
      (hrow : conversationOf userID topic st.table = conversationOf userID topic table)
      (hclosed : (∃ result, st.status = .returned result) ↔
        (∃ result, status = .returned result) ∨ ¬ LosesNothing userID topic table status)
      (hmissed : ∀ summary, st.status = .missed summary →
        summaryOf userID (args.inTopic topic) = some summary)

variable {status : UpsertStatus}

theorem WritesRow.open (h : WritesRow userID topic table status)
    (result : Except String Unit) : status ≠ .returned result := by
  rintro rfl
  exact h

theorem WritesRow.losesNothing (h : WritesRow userID topic table status) :
    LosesNothing userID topic table status := by
  cases status with
  | start => exact h.1
  | missed _ => exact h
  | returned _ => trivial

theorem bySender_inTopic (call : Incoming userID) :
    bySender userID (call.args.inTopic topic) = false := by
  exact decide_eq_false (Ne.symm call.fromOther)

theorem summaryOf_ne_none_iff (args : UpsertArgs) :
    summaryOf userID (args.inTopic topic) ≠ none ↔ HasConversations topic := by
  unfold summaryOf summarize HasConversations
  rw [inTopic_topic]
  cases parseTopicType topic with
  | p2p => cases extractUserIDsFromP2PTopic topic <;> simp
  | group | system | unknown => simp

theorem upsertUpdate_effect (call : Incoming userID) :
    StatementEffect userID topic call.args .start table
      (upsertUpdate userID (call.args.inTopic topic) .none "" table) := by
  have htopic : summaryOf userID (call.args.inTopic topic) ≠ none ↔ HasConversations topic :=
    summaryOf_ne_none_iff call.args
  cases hsum : summaryOf userID (call.args.inTopic topic) with
  | none =>
    have hno : ¬ HasConversations topic := fun h => htopic.mpr h hsum
    rcases upsertUpdate_of_none .none "" table hsum with ⟨result, heq⟩
    rw [heq]
    exact .kept rfl (fun h => hno h.1) rfl (iff_of_true ⟨result, rfl⟩ (.inr hno)) (by simp)
  | some summary =>
    have hhas : HasConversations topic := htopic.mp (by rw [hsum]; exact some_ne_none _)
    have hseq := summaryOf_topicSeq hsum
    cases hrow : conversationOf userID topic table with
    | none =>
      rcases upsertUpdate_of_no_row .none "" hsum hrow with ⟨hstatus, hwrote, hafter⟩
      refine .kept hwrote (fun h => h.2 hrow) (hafter.trans hrow.symm) ?_ ?_
      · rw [hstatus]
        exact iff_of_false (by simp [CallFault.reported]) (by simp [LosesNothing, hhas])
      · intro other hother
        rw [hstatus] at hother
        simpa [hsum, CallFault.reported] using hother
    | some c =>
      rcases upsertUpdate_of_row .none "" hsum hrow with ⟨hstatus, hwrote, hafter⟩
      rw [inTopic_topic, bySender_inTopic] at hafter
      rw [inTopic_topicSeq] at hseq
      refine .wrote hwrote ⟨hhas, by rw [hrow]; exact some_ne_none _⟩ ⟨_, hstatus⟩ ?_ ?_
      · simp [unreadOf, hafter, hrow, CallFault.applied, update]
      · simpa [lastSeqOf, hafter, CallFault.applied, update] using hseq

theorem upsertInsert_effect (call : Incoming userID) {summary : Summary}
    (hsum : summaryOf userID (call.args.inTopic topic) = some summary) :
    StatementEffect userID topic call.args (.missed summary) table
      (upsertInsert userID (call.args.inTopic topic) summary .none "" table) := by
  have hseq := summaryOf_topicSeq hsum
  have happlied : CallFault.none.applied = true := rfl
  rcases upsertInsert_row "" userID (call.args.inTopic topic) table summary happlied with
    ⟨hafter, hwrote⟩
  rw [inTopic_topic] at hwrote
  rw [inTopic_topic, bySender_inTopic] at hafter
  rw [inTopic_topicSeq] at hseq
  cases hrow : conversationOf userID topic table with
  | none =>
    refine .wrote (hwrote.mpr hrow) hrow ⟨_, rfl⟩ ?_ ?_
    · simp [unreadOf, hafter, hrow, row]
    · simpa [lastSeqOf, hafter, hrow, row] using hseq
  | some c =>
    have hmeets : conversationOf userID topic table ≠ none := by
      rw [hrow]
      exact some_ne_none c
    refine .kept ?_ hmeets ?_ (iff_of_true ⟨_, rfl⟩ (.inr hmeets)) (by simp [upsertInsert])
    · simp [← Bool.not_eq_true, hwrote, hrow]
    · rw [hafter, hrow]
      rfl

theorem upsertStatement_effect (table : Conversations) (call : Incoming userID)
    (hmissed : ∀ summary, status = .missed summary →
      summaryOf userID (call.args.inTopic topic) = some summary) :
    StatementEffect userID topic call.args status table
      (upsertStatement userID (call.args.inTopic topic) .none "" status table) := by
  cases status with
  | start => exact upsertUpdate_effect call
  | missed summary => exact upsertInsert_effect call (hmissed summary rfl)
  | returned result =>
    exact .kept rfl id rfl (iff_of_true ⟨result, rfl⟩ (.inl ⟨result, rfl⟩))
      (by simp [upsertStatement])

/-! ## Runs -/

/-- The row counts the writes, and shows the number of the last of them. -/
structure UpsertInv (topic : String) (calls : List (Incoming userID)) (table : Conversations)
    (s : UpsertRun) : Prop where
  unread : unreadOf userID topic s.table = unreadOf userID topic table + s.written.length
  last : lastSeqOf userID topic s.table =
    (s.written.getLast?.map (seqOf userID calls)).getD (lastSeqOf userID topic table)
  nodup : s.written.Nodup
  closed : ∀ i ∈ s.written, i < calls.length ∧ ∃ result, s.status i = .returned result
  missed : ∀ i call, calls[i]? = some call → ∀ summary, s.status i = .missed summary →
    summaryOf userID (call.args.inTopic topic) = some summary

theorem upsertInv_init : UpsertInv topic calls table { table } where
  unread := rfl
  last := rfl
  nodup := nodup_nil
  closed := by simp
  missed := by simp

theorem upsertInv_step (s : UpsertRun) (i : ℕ) (h : UpsertInv topic calls table s) :
    UpsertInv topic calls table (upsertStep userID topic calls s i) := by
  unfold upsertStep
  cases hi : calls[i]? with
  | none => exact h
  | some call =>
    have hlt : i < calls.length := (List.getElem?_eq_some_iff.mp hi).1
    cases upsertStatement_effect s.table call (h.missed i call hi) with
    | wrote hwrote hwrites hclosed hunread hlast =>
      have hnew : i ∉ s.written := by
        intro hmem
        rcases (h.closed i hmem).2 with ⟨result, hresult⟩
        exact hwrites.open result hresult
      simp only [hwrote, if_true]
      exact {
        unread := by
          rw [hunread, h.unread, length_append, length_singleton]
          omega
        last := by
          rw [hlast, getLast?_concat]
          simp [seqOf, hi]
        nodup := by
          rw [← concat_eq_append]
          exact Nodup.concat hnew h.nodup
        closed := by
          intro j hj
          by_cases hji : j = i
          · subst hji
            simpa [hlt] using hclosed
          · have hold : j ∈ s.written := by simpa [hji] using hj
            simpa [hji] using h.closed j hold
        missed := by
          intro j other hj summary hsummary
          by_cases hji : j = i
          · subst hji
            rcases hclosed with ⟨result, hresult⟩
            simp [hresult] at hsummary
          · exact h.missed j other hj summary (by simpa [hji] using hsummary) }
    | kept hwrote _ hrow hclosed hmissed =>
      simp only [hwrote]
      exact {
        unread := by simpa [unreadOf, hrow] using h.unread
        last := by simpa [lastSeqOf, hrow] using h.last
        nodup := h.nodup
        closed := by
          intro j hj
          rcases h.closed j hj with ⟨hjlt, hreturned⟩
          refine ⟨hjlt, ?_⟩
          by_cases hji : j = i
          · subst hji
            simpa using hclosed.mpr (.inl hreturned)
          · simpa [hji] using hreturned
        missed := by
          intro j other hj summary hsummary
          by_cases hji : j = i
          · subst hji
            obtain rfl : other = call := some.inj (hj.symm.trans hi)
            exact hmissed summary (by simpa using hsummary)
          · exact h.missed j other hj summary (by simpa [hji] using hsummary) }

variable {s : UpsertRun}

theorem UpsertInv.length_eq_iff (h : UpsertInv topic calls table s) :
    s.written.length = calls.length ↔ ∀ i < calls.length, i ∈ s.written := by
  have hsub : s.written ⊆ range calls.length := by
    intro i hi
    exact mem_range.mpr (h.closed i hi).1
  have hsubperm : s.written.Subperm (range calls.length) :=
    subperm_of_subset h.nodup hsub
  constructor
  · intro hlen i hi
    have hle : (range calls.length).length ≤ s.written.length :=
      Nat.le_of_eq (length_range.trans hlen.symm)
    exact (Subperm.perm_of_length_le hsubperm hle).mem_iff.mpr (mem_range.mpr hi)
  · intro hall
    have hback : range calls.length ⊆ s.written := by
      intro i hi
      exact hall i (mem_range.mp hi)
    have hle := (subperm_of_subset nodup_range hback).length_le
    have hge := hsubperm.length_le
    rw [length_range] at hle hge
    omega

/-- Every call that has returned has written the row. -/
def AllWritten (calls : List (Incoming userID)) (s : UpsertRun) : Prop :=
  ∀ i < calls.length, (∃ result, s.status i = .returned result) → i ∈ s.written

theorem allWritten_step_iff (h : UpsertInv topic calls table s) (i : ℕ) :
    AllWritten calls (upsertStep userID topic calls s i) ↔
      AllWritten calls s ∧
        NextLosesNothing userID topic calls s i := by
  unfold upsertStep
  cases hi : calls[i]? with
  | none =>
    exact (and_iff_left fun hlt => absurd hi (by simp [getElem?_eq_getElem hlt])).symm
  | some call =>
    have hlt : i < calls.length := (List.getElem?_eq_some_iff.mp hi).1
    cases upsertStatement_effect s.table call (h.missed i call hi) with
    | wrote hwrote hwrites hclosed hunread hlast =>
      simp only [hwrote, if_true]
      constructor
      · intro hall
        refine ⟨fun j hj hreturned => ?_, fun _ => hwrites.losesNothing⟩
        have hji : j ≠ i := by
          rintro rfl
          rcases hreturned with ⟨result, hresult⟩
          exact hwrites.open result hresult
        have hmem := hall j hj (by simpa [hji] using hreturned)
        simpa [hji] using hmem
      · rintro ⟨hall, -⟩ j hj hreturned
        by_cases hji : j = i
        · simp [hji]
        · exact mem_append_left [i] (hall j hj (by simpa [hji] using hreturned))
    | kept hwrote _ hrow hclosed hmissed =>
      simp only [hwrote]
      constructor
      · intro hall
        constructor
        · intro j hj hreturned
          refine hall j hj ?_
          by_cases hji : j = i
          · subst hji
            simpa using hclosed.mpr (.inl hreturned)
          · simpa [hji] using hreturned
        · intro _
          by_contra hloses
          have hmem := hall i hlt (by simpa using hclosed.mpr (.inr hloses))
          rcases (h.closed i hmem).2 with ⟨result, hresult⟩
          rw [hresult] at hloses
          exact hloses trivial
      · rintro ⟨hall, hloses⟩ j hj hreturned
        by_cases hji : j = i
        · subst hji
          rcases hclosed.mp (by simpa using hreturned) with hold | hbad
          · exact hall j hj hold
          · exact absurd (hloses hlt) hbad
        · exact hall j hj (by simpa [hji] using hreturned)

theorem allWritten_run_iff (h : UpsertInv topic calls table s) (schedule : List ℕ) :
    AllWritten calls (run (upsertStep userID topic calls) s schedule) ↔
      AllWritten calls s ∧ Along (upsertStep userID topic calls)
        (NextLosesNothing userID topic calls) s schedule := by
  induction schedule generalizing s with
  | nil => exact (and_iff_left trivial).symm
  | cons i schedule ih =>
    rw [run_cons, ih (upsertInv_step s i h), allWritten_step_iff h, and_assoc]
    exact Iff.rfl

theorem getLast?_written_step (h : UpsertInv topic calls table s) (i j : ℕ) :
    (upsertStep userID topic calls s j).written.getLast? = some i ↔
      (NextWrites userID topic calls s j ∧ j = i) ∨
        (s.written.getLast? = some i ∧ ¬ NextWrites userID topic calls s j) := by
  unfold upsertStep
  cases hj : calls[j]? with
  | none =>
    have hge : ¬ j < calls.length := fun hlt => by simp [getElem?_eq_getElem hlt] at hj
    simp [NextWrites, hge]
  | some call =>
    have hlt : j < calls.length := (List.getElem?_eq_some_iff.mp hj).1
    cases upsertStatement_effect s.table call (h.missed j call hj) with
    | wrote hwrote hwrites _ _ _ => simp [hwrote, NextWrites, hlt, hwrites]
    | kept hwrote hwrites _ _ _ => simp [hwrote, NextWrites, hlt, hwrites]

theorem upsertInv_run (schedule : List ℕ) :
    UpsertInv topic calls table (run (upsertStep userID topic calls) { table } schedule) :=
  invariant_run_all upsertInv_step schedule upsertInv_init

theorem getLast?_written_iff (schedule : List ℕ) (i : ℕ) :
    (run (upsertStep userID topic calls) { table } schedule).written.getLast? = some i ↔
      ∃ before later, schedule = before ++ i :: later ∧
        LastWrite userID topic calls table before i later := by
  have hstep : ∀ s j, UpsertInv topic calls table s →
      ((upsertStep userID topic calls s j).written.getLast? = some i ↔
        (NextWrites userID topic calls s j ∧ j = i) ∨
          (s.written.getLast? = some i ∧ ¬ NextWrites userID topic calls s j)) :=
    fun s j h => getLast?_written_step h i j
  rw [latch_run_iff (p := fun s : UpsertRun => s.written.getLast? = some i) upsertInv_step hstep
    upsertInv_init]
  constructor
  · rintro (⟨hnone, -⟩ | ⟨before, j, later, hsplit, ⟨hwrites, rfl⟩, hrest⟩)
    · cases hnone
    · exact ⟨before, later, hsplit, hwrites, hrest⟩
  · rintro ⟨before, later, hsplit, hwrites, hrest⟩
    exact .inr ⟨before, i, later, hsplit, ⟨hwrites, rfl⟩, hrest⟩

/-- Let the statements of all calls run in any order. The row then has counted every call and shows
the largest number exactly when no INSERT met a row and the topic has conversations, and the last
statement that wrote the row is that of a call with the largest number. -/
theorem upserts_all_counted_iff (userID : Int) (topic : String) (calls : List (Incoming userID))
    (table : Conversations) (schedule : List ℕ) (hreturned : ∀ i < calls.length,
      (run (upsertStep userID topic calls) { table } schedule).status i = .returned (.ok ())) :
    (unreadOf userID topic (run (upsertStep userID topic calls) { table } schedule).table =
          unreadOf userID topic table + calls.length ∧
        lastSeqOf userID topic (run (upsertStep userID topic calls) { table } schedule).table =
          largestSeq userID topic calls table) ↔
      Along (upsertStep userID topic calls) (NextLosesNothing userID topic calls) { table }
          schedule ∧
        ∀ before i later, schedule = before ++ i :: later →
          LastWrite userID topic calls table before i later →
          seqOf userID calls i = largestSeq userID topic calls table := by
  have hinv : UpsertInv topic calls table
      (run (upsertStep userID topic calls) { table } schedule) := upsertInv_run schedule
  have hall : (∀ i < calls.length,
        i ∈ (run (upsertStep userID topic calls) { table } schedule).written) ↔
      Along (upsertStep userID topic calls) (NextLosesNothing userID topic calls) { table }
        schedule := by
    have hclosed : ∀ i < calls.length, ∃ result,
        (run (upsertStep userID topic calls) { table } schedule).status i = .returned result :=
      fun i hi => ⟨.ok (), hreturned i hi⟩
    refine (forall₂_congr fun i hi => (imp_iff_right (hclosed i hi)).symm).trans ?_
    exact (allWritten_run_iff upsertInv_init schedule).trans (and_iff_right (by simp [AllWritten]))
  rw [hinv.unread, Nat.add_left_cancel_iff, hinv.length_eq_iff, hinv.last, hall]
  apply and_congr_right
  intro hguard
  cases hwritten : (run (upsertStep userID topic calls) { table } schedule).written.getLast? with
  | some i =>
    obtain ⟨before, later, hsplit, hwrite⟩ := (getLast?_written_iff schedule i).mp hwritten
    refine ⟨fun heq before' j later' hsplit' hwrite' => ?_,
      fun hlargest => hlargest before i later hsplit hwrite⟩
    have hsame := (getLast?_written_iff schedule j).mpr ⟨before', later', hsplit', hwrite'⟩
    obtain rfl := some.inj (hwritten.symm.trans hsame)
    exact heq
  | none =>
    -- nothing was written, so there are no calls
    have hnil := getLast?_eq_none_iff.mp hwritten
    have hzero : calls.length = 0 := by
      rw [← hall, ← hinv.length_eq_iff, hnil] at hguard
      exact hguard.symm
    obtain rfl := eq_nil_of_length_eq_zero hzero
    refine iff_of_true (by simp [largestSeq]) fun before i later hsplit hwrite => ?_
    exact absurd hwrite.1.1 (Nat.not_lt_zero i)

def twoUpserts : List (Incoming 1) :=
  [⟨⟨{ topic := "", senderID := 2 }, 7, none⟩, by decide⟩,
    ⟨⟨{ topic := "", senderID := 2 }, 5, none⟩, by decide⟩]

/-- The call with the smaller number inserts the row before the other one looks for it. -/
theorem upserts_counted_in_order :
    (∀ i < twoUpserts.length,
      (run (upsertStep 1 "p2p_1_2" twoUpserts) { table := .empty } [1, 1, 0]).status i =
        .returned (.ok ())) ∧
    Along (upsertStep 1 "p2p_1_2" twoUpserts) (NextLosesNothing 1 "p2p_1_2" twoUpserts)
      { table := .empty } [1, 1, 0] := by
  have hreturned : ∀ i < twoUpserts.length,
      (run (upsertStep 1 "p2p_1_2" twoUpserts) { table := .empty } [1, 1, 0]).status i =
        .returned (.ok ()) := by
    decide
  exact ⟨hreturned, ((upserts_all_counted_iff 1 "p2p_1_2" twoUpserts .empty [1, 1, 0]
    hreturned).mp (by decide)).1⟩

/-- Both updates meet no row, and the second insert meets the row of the first: both calls return
without an error, and one message is counted. -/
theorem upsert_loses_a_message :
    ((run (upsertStep 1 "p2p_1_2" twoUpserts) { table := .empty } [0, 1, 0, 1]).status 0 =
        .returned (.ok ()) ∧
      (run (upsertStep 1 "p2p_1_2" twoUpserts) { table := .empty } [0, 1, 0, 1]).status 1 =
        .returned (.ok ())) ∧
    ¬ unreadOf 1 "p2p_1_2"
        (run (upsertStep 1 "p2p_1_2" twoUpserts) { table := .empty } [0, 1, 0, 1]).table =
      unreadOf 1 "p2p_1_2" .empty + twoUpserts.length := by
  decide

-- the later call has the smaller number
example : lastSeqOf 1 "p2p_1_2"
    (run (upsertStep 1 "p2p_1_2" twoUpserts) { table := .empty } [0, 0, 1]).table = 5 := by
  decide

end NonokaIM
