import NonokaIM.Model.Recall

/-! Whether a recall marks all the copies of a message or none: three updates, each with its own
window. -/

namespace NonokaIM

open DocumentStore StoredMessage Collection RecallArgs

/-- The row is a copy of the message, by the sender who recalls it. -/
def RecallArgs.Copy (args : RecallArgs) (r : RecallFields) : Prop :=
  r.topic = args.topic ∧ r.topicSeq = args.topicSeq ∧ r.senderID = args.senderID
  deriving Decidable

def RecallFields.Recalled (r : RecallFields) : Prop := r.recalled = true ∧ r.content = []
  deriving Decidable

/-- Every row that may hold the content of a message. -/
def Store.recallRows (s : Store) : List RecallFields :=
  s.messages.rows.map recallFields ++
    (s.inboxes.rows.map InboxMessage.recallFields ++
      s.mentionInboxes.rows.map MentionMessage.recallFields)

theorem Store.forall_recallRows {s : Store} {Q : RecallFields → Prop} :
    (∀ r ∈ s.recallRows, Q r) ↔
      (∀ r ∈ s.messages.rows, Q r.recallFields) ∧ (∀ r ∈ s.inboxes.rows, Q r.recallFields) ∧
        ∀ r ∈ s.mentionInboxes.rows, Q r.recallFields := by
  simp only [Store.recallRows, List.forall_mem_append, List.forall_mem_map]

structure Untouched (s s' : Store) : Prop where
  messages : s'.messages = s.messages
  inboxes : s'.inboxes = s.inboxes
  mentionInboxes : s'.mentionInboxes = s.mentionInboxes

/-- A recall that succeeds has marked every copy; one that fails has changed none. -/
structure AllOrNothing (args : RecallArgs) (s : Store) (outcome : Except RecallError Unit × Store) :
    Prop where
  all : outcome.1 = .ok () → ∀ r ∈ outcome.2.recallRows, args.Copy r → r.Recalled
  nothing : ∀ e, outcome.1 = .error e → Untouched s outcome.2

/-! ## One update -/

theorem RecallArgs.unmarked_of_selects {args : RecallArgs} {now : Int} {r : RecallFields}
    (h : args.selects now r = true) : r.recalled = false := by
  simp only [selects, Bool.and_eq_true, Bool.not_eq_true'] at h
  exact h.1.1.2

section

variable {ρ κ : Type*} {keys : ρ → List κ}

/-- The update marks a row and clears its content, and changes nothing else that a recall
reads. -/
def Marks (fields : ρ → RecallFields) (u : Update keys) : Prop :=
  ∀ r, fields (u.set r) = { fields r with recalled := true, content := [] }

variable {fields : ρ → RecallFields}

theorem Marks.untouched_iff {u : Update keys} (hu : Marks fields u)
    (c : Collection keys) (args : RecallArgs) (now : Int) (reached : ρ → Bool) :
    c.update (fun r => args.selects now (fields r) && reached r) u = c ↔
      ∀ r ∈ c.rows, args.selects now (fields r) = true → reached r = false := by
  rw [update_eq_self_iff]
  · simp only [Bool.and_eq_false_imp]
  · intro r hr heq
    rw [Bool.and_eq_true] at hr
    have hmarked : (fields r).recalled = true := by
      rw [← heq, hu]
    rw [unmarked_of_selects hr.1] at hmarked
    exact Bool.false_ne_true hmarked

theorem Marks.recalled_iff {u : Update keys} (hu : Marks fields u)
    (c : Collection keys) (args : RecallArgs) (now : Int) :
    (∀ r ∈ (c.update (fun r => args.selects now (fields r)) u).rows,
        args.Copy (fields r) → (fields r).Recalled) ↔
      ∀ r ∈ c.rows, args.Copy (fields r) →
        args.selects now (fields r) = true ∨ (fields r).Recalled := by
  rw [forall_update]
  apply forall₂_congr
  intro r _
  cases hsel : args.selects now (fields r) with
  | false => simp
  | true =>
    have hrecalled : (fields (u.set r)).Recalled := by
      rw [hu]
      exact ⟨rfl, rfl⟩
    simp [hrecalled]

end

theorem recallStored_marks : Marks recallFields recallStored := fun _ => rfl

theorem recallInbox_marks : Marks InboxMessage.recallFields recallInbox := fun _ => rfl

theorem recallMention_marks : Marks MentionMessage.recallFields recallMention := fun _ => rfl

/-! ## The three updates -/

/-- The message has no row in this list that the recall selects. -/
def Unselected {ρ : Type*} (args : RecallArgs) (now : Int) (fields : ρ → RecallFields)
    (rows : List ρ) : Prop :=
  ∀ r ∈ rows, args.selects now (fields r) = false

/-- The selected rows of a failed update are all out of its reach. -/
def Unreached {ρ : Type*} (args : RecallArgs) (now : Int) (fields : ρ → RecallFields)
    (reached : ρ → Bool) (rows : List ρ) : Prop :=
  ∀ r ∈ rows, args.selects now (fields r) = true → reached r = false

/-- A failed update, and the updates before it, find nothing to change; and if none fails, the
filter selects no copy, or every copy that is not marked. -/
def Undivided (args : RecallArgs) (now : Int) (fault : RecallFault) (s : Store) : Prop :=
  match fault.messages, fault.inboxes, fault.mentionInboxes with
  | .failed reached _, _, _ =>
    Unreached args now recallFields reached s.messages.rows
  | .none, .failed reached _, _ =>
    Unselected args now recallFields s.messages.rows ∧
      Unreached args now InboxMessage.recallFields reached s.inboxes.rows
  | .none, .none, .failed reached _ =>
    Unselected args now recallFields s.messages.rows ∧
      Unselected args now InboxMessage.recallFields s.inboxes.rows ∧
        Unreached args now MentionMessage.recallFields reached s.mentionInboxes.rows
  | .none, .none, .none =>
    (∀ r ∈ s.recallRows, args.selects now r = false) ∨
      ∀ r ∈ s.recallRows, args.Copy r → args.selects now r = true ∨ r.Recalled

theorem Marks.update_eq_self_iff {ρ κ : Type*} {keys : ρ → List κ} {fields : ρ → RecallFields}
    {u : Update keys} (hu : Marks fields u) (c : Collection keys) (args : RecallArgs) (now : Int) :
    c.update (fun r => args.selects now (fields r)) u = c ↔
      Unselected args now fields c.rows := by
  have h := hu.untouched_iff c args now fun _ => true
  simpa [Unselected] using h

/-- The collections that a recall leaves when none of its updates fails. -/
def Store.recalled (s : Store) (args : RecallArgs) (now : Int) : Store :=
  { s with
    messages := s.messages.update (fun r => args.selects now r.recallFields) recallStored
    inboxes := s.inboxes.update (fun r => args.selects now r.recallFields) recallInbox
    mentionInboxes :=
      s.mentionInboxes.update (fun r => args.selects now r.recallFields) recallMention }

variable {s : Store} {args : RecallArgs} {now : Int}

theorem matched_eq_zero_iff :
    s.messages.rows.countP (fun r => args.selects now r.recallFields) +
        s.inboxes.rows.countP (fun r => args.selects now r.recallFields) +
        s.mentionInboxes.rows.countP (fun r => args.selects now r.recallFields) = 0 ↔
      ∀ r ∈ s.recallRows, args.selects now r = false := by
  simp only [Nat.add_eq_zero_iff, List.countP_eq_zero, Store.forall_recallRows, Bool.not_eq_true,
    and_assoc]

theorem recallMessage_none (args : RecallArgs) (now : Int) (s : Store) :
    (recallMessage args now .none s).1 =
        (if ∀ r ∈ s.recallRows, args.selects now r = false then .error .notFound else .ok ()) ∧
      (recallMessage args now .none s).2 = s.recalled args now := by
  simp only [recallMessage, RecallFault.none, updateMany, matched_eq_zero_iff, Store.recalled,
    and_self]

theorem untouched_recalled (h : ∀ r ∈ s.recallRows, args.selects now r = false) :
    Untouched s (s.recalled args now) := by
  rw [Store.forall_recallRows] at h
  exact ⟨update_eq_self h.1, update_eq_self h.2.1, update_eq_self h.2.2⟩

theorem recallRows_recalled_iff :
    (∀ r ∈ (s.recalled args now).recallRows, args.Copy r → r.Recalled) ↔
      ∀ r ∈ s.recallRows, args.Copy r → args.selects now r = true ∨ r.Recalled := by
  rw [Store.forall_recallRows, Store.forall_recallRows]
  exact and_congr (recallStored_marks.recalled_iff _ _ _)
    (and_congr (recallInbox_marks.recalled_iff _ _ _) (recallMention_marks.recalled_iff _ _ _))

theorem allOrNothing_none_iff :
    AllOrNothing args s (recallMessage args now .none s) ↔
      (∀ r ∈ s.recallRows, args.selects now r = false) ∨
        ∀ r ∈ s.recallRows, args.Copy r → args.selects now r = true ∨ r.Recalled := by
  obtain ⟨hresult, hstore⟩ := recallMessage_none args now s
  by_cases hnone : ∀ r ∈ s.recallRows, args.selects now r = false
  · rw [if_pos hnone] at hresult
    refine iff_of_true ⟨?_, ?_⟩ (.inl hnone)
    · intro hok
      rw [hresult] at hok
      cases hok
    · intro e _
      rw [hstore]
      exact untouched_recalled hnone
  · rw [if_neg hnone] at hresult
    rw [or_iff_right hnone, ← recallRows_recalled_iff]
    constructor
    · intro h
      rw [← hstore]
      exact h.all hresult
    · intro h
      refine ⟨?_, ?_⟩
      · intro _
        rw [hstore]
        exact h
      · intro e he
        rw [hresult] at he
        cases he

theorem allOrNothing_error_iff {s' : Store} {e : RecallError} :
    AllOrNothing args s (.error e, s') ↔ Untouched s s' := by
  constructor
  · intro h
    exact h.nothing e rfl
  · intro h
    refine ⟨?_, fun _ _ => h⟩
    intro hok
    cases hok

theorem untouched_iff {s' : Store} :
    Untouched s s' ↔ s'.messages = s.messages ∧ s'.inboxes = s.inboxes ∧
      s'.mentionInboxes = s.mentionInboxes :=
  ⟨fun h => ⟨h.messages, h.inboxes, h.mentionInboxes⟩, fun h => ⟨h.1, h.2.1, h.2.2⟩⟩

/-- A recall is all or nothing exactly when its updates do not come apart. -/
theorem recall_all_or_nothing_iff (args : RecallArgs) (now : Int) (fault : RecallFault)
    (s : Store) :
    AllOrNothing args s (recallMessage args now fault s) ↔ Undivided args now fault s := by
  obtain ⟨messages, inboxes, mentions⟩ := fault
  -- The first update that fails decides how far the recall has come.
  cases messages with
  | failed reached text =>
    simp only [recallMessage, updateMany, Undivided]
    rw [allOrNothing_error_iff, untouched_iff, recallStored_marks.untouched_iff]
    simp only [and_true]
    rfl
  | none =>
    cases inboxes with
    | failed reached text =>
      simp only [recallMessage, updateMany, Undivided]
      rw [allOrNothing_error_iff, untouched_iff, recallStored_marks.update_eq_self_iff,
        recallInbox_marks.untouched_iff]
      simp only [and_true]
      rfl
    | none =>
      cases mentions with
      | failed reached text =>
        simp only [recallMessage, updateMany, Undivided]
        rw [allOrNothing_error_iff, untouched_iff, recallStored_marks.update_eq_self_iff,
          recallInbox_marks.update_eq_self_iff, recallMention_marks.untouched_iff]
        rfl
      | none => exact allOrNothing_none_iff

def mentionWrittenLater : Store where
  messages := .insert .empty
    { msgID := 7, topic := "grp_1", senderID := 1, msgType := 1, content := [104, 105],
      timestamp := 0, topicSeq := 1, clientMsgID := "a", createdAt := 0 }
  mentionInboxes := .insert .empty
    { userID := 2, msgID := 7, topic := "grp_1", senderID := 1, msgType := 1,
      content := [104, 105], timestamp := 0, topicSeq := 1, clientMsgID := "a", createdAt := 5 }

/-- Twelve units after the message, with a window of ten, only the mention row is young enough:
the recall succeeds and the message keeps its content. -/
theorem recall_misses_older_copy :
    ¬ AllOrNothing { topic := "grp_1", topicSeq := 1, senderID := 1, window := 10 }
      mentionWrittenLater
      (recallMessage { topic := "grp_1", topicSeq := 1, senderID := 1, window := 10 } 12 .none
        mentionWrittenLater) := by
  rw [allOrNothing_none_iff]
  decide

end NonokaIM
