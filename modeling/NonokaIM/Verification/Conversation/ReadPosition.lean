import NonokaIM.Library.GuardedRun
import NonokaIM.Verification.Conversation.Rows

/-! # The read position of a conversation

Upserts and reads assign the two numbers as they come. -/

namespace NonokaIM

open DocumentStore GuardedRun

/-- A call for one user and topic. -/
inductive ConversationCall where
  | upsert (args : UpsertArgs) (fault : UpsertFault)
  | markRead (upToSeq : ℕ) (fault : CallFault) (text : String)

section

variable (userID : Int) (topic : String)

def conversationStep (table : Conversations) : ConversationCall → Conversations
  | .upsert args fault => (upsertConversation userID (args.inTopic topic) fault table).table
  | .markRead upToSeq fault text => (markRead userID topic upToSeq fault text table).2

/-- From one row to the next the read position does not fall, and does not pass the last
message. -/
def ReadAdvances (before after : Option Conversation) : Prop :=
  (∀ c ∈ before, ∀ c' ∈ after, c.lastReadSeq ≤ c'.lastReadSeq) ∧
    ∀ c' ∈ after, c'.lastReadSeq ≤ c'.lastSeq
  deriving Decidable

/-- The call brings no number below the read position, and reads no further than to the last
message. -/
def InOrder (table : Conversations) : ConversationCall → Prop
  | .upsert args fault =>
    ∀ c ∈ conversationOf userID topic table, fault.update.applied = true →
      summaryOf userID (args.inTopic topic) ≠ none → c.lastReadSeq ≤ args.topicSeq
  | .markRead upToSeq fault _ =>
    ∀ c ∈ conversationOf userID topic table, fault.applied = true → 0 < upToSeq →
      c.lastReadSeq ≤ upToSeq ∧ upToSeq ≤ c.lastSeq

end

variable {userID : Int} {topic : String} {table : Conversations}

section

variable {args : UpsertArgs} {summary : Summary} (fault : UpsertFault)

theorem upsertConversation_of_none (h : summaryOf userID args = none) :
    (upsertConversation userID args fault table).table = table := by
  rcases upsertUpdate_of_none fault.update fault.text table h with ⟨result, hfirst⟩
  simp only [upsertConversation, upsertStatement, hfirst]

theorem upsertConversation_of_row (h : summaryOf userID args = some summary) {c : Conversation}
    (hc : conversationOf userID args.msg.topic table = some c) :
    conversationOf userID args.msg.topic (upsertConversation userID args fault table).table =
      some (if fault.update.applied then (summary.update (bySender userID args)).set c else c) := by
  rcases upsertUpdate_of_row fault.update fault.text h hc with ⟨hstatus, _, hrow⟩
  simp only [upsertConversation, upsertStatement, hstatus]
  exact hrow

theorem upsertConversation_of_no_row (h : summaryOf userID args = some summary)
    (hc : conversationOf userID args.msg.topic table = none) :
    conversationOf userID args.msg.topic (upsertConversation userID args fault table).table =
      if fault.update.reported = false ∧ fault.insert.applied = true then
        some (summary.row userID args.msg.topic (bySender userID args))
      else none := by
  rcases upsertUpdate_of_no_row fault.update fault.text h hc with ⟨hstatus, _, hrow⟩
  simp only [upsertConversation, upsertStatement, hstatus]
  cases hreported : fault.update.reported with
  | true => simpa [hreported] using hrow
  | false =>
    cases happlied : fault.insert.applied with
    | true => simp [(upsertInsert_row fault.text userID args _ summary happlied).1, hrow]
    | false => simp [(upsertInsert_of_failed fault.text summary happlied).1, hrow]

end

theorem conversationOf_markRead (upToSeq : ℕ) (fault : CallFault) (text : String) :
    conversationOf userID topic (markRead userID topic upToSeq fault text table).2 =
      (conversationOf userID topic table).map fun c =>
        if fault.applied then (readUpdate upToSeq).set c else c := by
  cases happlied : fault.applied with
  | true => simp [markRead, happlied, conversationOf_update]
  | false => simp [markRead, happlied]

/-- The read position does not pass the last message. -/
def ReadWithin (userID : Int) (topic : String) (table : Conversations) : Prop :=
  ∀ c ∈ conversationOf userID topic table, c.lastReadSeq ≤ c.lastSeq

theorem readAdvances_refl (h : ReadWithin userID topic table) :
    ReadAdvances (conversationOf userID topic table) (conversationOf userID topic table) := by
  refine ⟨?_, h⟩
  intro c hc c' hc'
  exact Nat.le_of_eq (congrArg Conversation.lastReadSeq (Option.mem_unique hc hc'))

theorem readAdvances_update_iff {c : Conversation} (summary : Summary) (bySender : Bool) :
    ReadAdvances (some c) (some ((summary.update bySender).set c)) ↔
      c.lastReadSeq ≤ summary.topicSeq := by
  cases bySender <;> simp [ReadAdvances, Summary.update]

theorem readAdvances_readUpdate_iff {c : Conversation} (hc : c.lastReadSeq ≤ c.lastSeq)
    (upToSeq : ℕ) :
    ReadAdvances (some c) (some ((readUpdate upToSeq).set c)) ↔
      (0 < upToSeq → c.lastReadSeq ≤ upToSeq ∧ upToSeq ≤ c.lastSeq) := by
  by_cases hpos : 0 < upToSeq
  · simp [ReadAdvances, readUpdate, hpos]
  · simp [ReadAdvances, readUpdate, hpos, hc]

theorem readAdvances_upsert_iff (h : ReadWithin userID topic table) (args : UpsertArgs)
    (fault : UpsertFault) :
    ReadAdvances (conversationOf userID topic table)
        (conversationOf userID topic (conversationStep userID topic table (.upsert args fault))) ↔
      InOrder userID topic table (.upsert args fault) := by
  simp only [conversationStep, InOrder]
  cases hsum : summaryOf userID (args.inTopic topic) with
  | none =>
    rw [upsertConversation_of_none fault hsum]
    exact iff_of_true (readAdvances_refl h) (by simp)
  | some summary =>
    cases hrow : conversationOf userID topic table with
    | none =>
      have hafter := upsertConversation_of_no_row fault hsum hrow
      rw [inTopic_topic] at hafter
      rw [hafter]
      refine iff_of_true ⟨by simp, ?_⟩ (by simp)
      intro c hc
      split at hc
      · obtain rfl := Option.some.inj hc
        cases hsender : bySender userID (args.inTopic topic) <;> simp [Summary.row]
      · cases hc
    | some c =>
      have hafter := upsertConversation_of_row fault hsum hrow
      have hseq := summaryOf_topicSeq hsum
      rw [inTopic_topic] at hafter
      rw [inTopic_topicSeq] at hseq
      rw [hafter]
      cases happlied : fault.update.applied with
      | false =>
        refine iff_of_true ?_ (by simp)
        simpa [hrow] using readAdvances_refl h
      | true =>
        simp only [if_true]
        rw [readAdvances_update_iff, hseq]
        simp

theorem readAdvances_step_iff (h : ReadWithin userID topic table) (call : ConversationCall) :
    ReadAdvances (conversationOf userID topic table)
        (conversationOf userID topic (conversationStep userID topic table call)) ↔
      InOrder userID topic table call := by
  cases call with
  | upsert args fault => exact readAdvances_upsert_iff h args fault
  | markRead upToSeq fault text =>
    simp only [conversationStep, InOrder, conversationOf_markRead]
    cases hrow : conversationOf userID topic table with
    | none => simp [ReadAdvances]
    | some c =>
      cases happlied : fault.applied with
      | false => simpa [ReadAdvances] using h c hrow
      | true => simpa using readAdvances_readUpdate_iff (h c hrow) upToSeq

/-- Over any sequence of upserts and reads of one user and topic, the read position never falls
and never passes the last message exactly when every call comes in order. -/
theorem read_position_advances_iff (userID : Int) (topic : String) (calls : List ConversationCall) :
    Along (conversationStep userID topic)
        (fun table call => ReadAdvances (conversationOf userID topic table)
          (conversationOf userID topic (conversationStep userID topic table call))) .empty calls ↔
      Along (conversationStep userID topic) (InOrder userID topic) .empty calls := by
  have hiff : ∀ table call, ReadWithin userID topic table →
      (ReadAdvances (conversationOf userID topic table)
          (conversationOf userID topic (conversationStep userID topic table call)) ↔
        InOrder userID topic table call) :=
    fun table call h => readAdvances_step_iff h call
  have hinit : ReadWithin userID topic .empty := by
    intro c hc
    cases hc
  refine along_congr hiff ?_ hinit
  intro table call _ hadv
  exact hadv.2

def readBackwards : List ConversationCall :=
  [.upsert ⟨{ topic := "", senderID := 2 }, 9, none⟩ {}, .markRead 5 .none "", .markRead 3 .none ""]

/-- The read position of a conversation with nine messages falls from 5 to 3. -/
theorem read_position_falls :
    ¬ Along (conversationStep 1 "p2p_1_2")
        (fun table call => ReadAdvances (conversationOf 1 "p2p_1_2" table)
          (conversationOf 1 "p2p_1_2" (conversationStep 1 "p2p_1_2" table call)))
        .empty readBackwards := by
  intro h
  exact absurd h.2.2.1 (by decide)

end NonokaIM
