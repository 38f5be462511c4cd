import NonokaIM.Model.Conversation

/-! What the statements do to the row of a user and a topic. -/

namespace NonokaIM

open DocumentStore Collection

def UpsertArgs.inTopic (args : UpsertArgs) (topic : String) : UpsertArgs :=
  { args with msg := { args.msg with topic } }

@[simp] theorem inTopic_topic (args : UpsertArgs) (topic : String) :
    (args.inTopic topic).msg.topic = topic := rfl

@[simp] theorem inTopic_topicSeq (args : UpsertArgs) (topic : String) :
    (args.inTopic topic).topicSeq = args.topicSeq := rfl

def conversationOf (userID : Int) (topic : String) (table : Conversations) : Option Conversation :=
  table.rows.find? (isConversation userID topic)

variable {userID : Int} {topic : String} {table : Conversations}

theorem isConversation_iff {c : Conversation} :
    isConversation userID topic c = true ↔ conversationKeys c = [(userID, topic)] := by
  simp [isConversation, conversationKeys]

theorem conversationOf_update (u : Update conversationKeys) :
    conversationOf userID topic (table.update (isConversation userID topic) u) =
      (conversationOf userID topic table).map u.set := by
  apply find?_update
  intro c hc
  rw [isConversation_iff] at hc ⊢
  rw [u.keys_set, hc]

theorem countP_eq_zero_iff :
    table.rows.countP (isConversation userID topic) = 0 ↔
      conversationOf userID topic table = none := by
  rw [List.countP_eq_zero, conversationOf, List.find?_eq_none]

theorem conversationOf_tryInsert (summary : Summary) (bySender : Bool) :
    conversationOf userID topic (table.tryInsert false (summary.row userID topic bySender)).1 =
        some ((conversationOf userID topic table).getD (summary.row userID topic bySender)) ∧
      ((table.tryInsert false (summary.row userID topic bySender)).2 = .stored ↔
        conversationOf userID topic table = none) := by
  apply find?_tryInsert
  · simp [isConversation, Summary.row]
  · intro c
    rw [isConversation_iff]
    simp [Conflict, conversationKeys, Summary.row]

def summaryOf (userID : Int) (args : UpsertArgs) : Option Summary :=
  match summarize userID args with
  | .ok summary => summary
  | .error _ => none

variable {summary : Summary}

theorem summaryOf_topicSeq {args : UpsertArgs} (h : summaryOf userID args = some summary) :
    summary.topicSeq = args.topicSeq := by
  unfold summaryOf summarize at h
  cases htype : parseTopicType args.msg.topic with
  | p2p =>
    cases hids : extractUserIDsFromP2PTopic args.msg.topic with
    | error e => simp [htype, hids] at h
    | ok ids =>
      simp only [htype, hids, Option.some.injEq] at h
      rw [← h]
      rfl
  | group =>
    simp only [htype, Option.some.injEq] at h
    rw [← h]
    rfl
  | system | unknown => simp [htype] at h

variable {args : UpsertArgs}

theorem summarize_of_summaryOf (h : summaryOf userID args = some summary) :
    summarize userID args = .ok (some summary) := by
  unfold summaryOf at h
  cases hsum : summarize userID args with
  | error e => simp [hsum] at h
  | ok s =>
    rw [hsum] at h
    rw [← h]

variable (fault : CallFault) (text : String)

theorem upsertUpdate_of_none (table : Conversations) (h : summaryOf userID args = none) :
    ∃ result, upsertUpdate userID args fault text table = ⟨.returned result, false, table⟩ := by
  unfold summaryOf at h
  unfold upsertUpdate
  cases hsum : summarize userID args with
  | error e => exact ⟨_, rfl⟩
  | ok summary =>
    rw [hsum] at h
    obtain rfl : summary = none := h
    exact ⟨_, rfl⟩

theorem upsertUpdate_of_row (h : summaryOf userID args = some summary) {c : Conversation}
    (hc : conversationOf userID args.msg.topic table = some c) :
    (upsertUpdate userID args fault text table).status =
        .returned (statementResult fault (updateLabel (bySender userID args) ++ text)) ∧
      (upsertUpdate userID args fault text table).wrote = fault.applied ∧
      conversationOf userID args.msg.topic (upsertUpdate userID args fault text table).table =
        some (if fault.applied then (summary.update (bySender userID args)).set c else c) := by
  have haffected : table.rows.countP (isConversation userID args.msg.topic) ≠ 0 := by
    rw [ne_eq, countP_eq_zero_iff, hc]
    simp
  simp only [upsertUpdate, summarize_of_summaryOf h, haffected, false_and, if_false, true_and,
    ne_eq, not_false_eq_true, decide_true, Bool.and_true]
  cases fault.applied with
  | true => simp [conversationOf_update, hc]
  | false => simp [hc]

theorem upsertUpdate_of_no_row (h : summaryOf userID args = some summary)
    (hc : conversationOf userID args.msg.topic table = none) :
    (upsertUpdate userID args fault text table).status =
        (if fault.reported then
          .returned (statementResult fault (updateLabel (bySender userID args) ++ text))
        else .missed summary) ∧
      (upsertUpdate userID args fault text table).wrote = false ∧
      conversationOf userID args.msg.topic (upsertUpdate userID args fault text table).table =
        none := by
  have haffected := countP_eq_zero_iff.mpr hc
  simp only [upsertUpdate, summarize_of_summaryOf h, haffected, true_and]
  refine ⟨?_, by simp, ?_⟩
  · cases fault.reported <;> simp
  · cases fault.applied with
    | true => simp [conversationOf_update, hc]
    | false => simp [hc]

variable {fault}

theorem upsertInsert_row (userID : Int) (args : UpsertArgs) (table : Conversations)
    (summary : Summary) (happlied : fault.applied = true) :
    conversationOf userID args.msg.topic (upsertInsert userID args summary fault text table).table =
        some ((conversationOf userID args.msg.topic table).getD
          (summary.row userID args.msg.topic (bySender userID args))) ∧
      ((upsertInsert userID args summary fault text table).wrote = true ↔
        conversationOf userID args.msg.topic table = none) := by
  simp only [upsertInsert, happlied, Bool.not_true, decide_eq_true_eq]
  exact conversationOf_tryInsert summary (bySender userID args)

theorem upsertInsert_of_failed (summary : Summary) (hfailed : fault.applied = false) :
    (upsertInsert userID args summary fault text table).table = table ∧
      (upsertInsert userID args summary fault text table).wrote = false := by
  simp [upsertInsert, hfailed, tryInsert_refused]

end NonokaIM
