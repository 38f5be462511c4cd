import NonokaIM.Verification.Recall.AllOrNothing
import NonokaIM.Verification.Worker.Traces

/-! The rows after a recall are still traced to the attempts of the workers. -/

namespace NonokaIM

open DocumentStore

section

variable (args : RecallArgs) (now : Int) (fault : RecallFault) (s : Store)

theorem recallMessage_messages :
    (recallMessage args now fault s).2.messages =
      (updateMany s.messages fault.messages (fun r => args.selects now r.recallFields)
        recallStored).1 := by
  obtain ⟨messages, inboxes, mentions⟩ := fault
  cases messages <;> cases inboxes <;> cases mentions <;> rfl

theorem recallMessage_inboxes :
    (recallMessage args now fault s).2.inboxes = s.inboxes ∨
      (recallMessage args now fault s).2.inboxes =
        (updateMany s.inboxes fault.inboxes (fun r => args.selects now r.recallFields)
          recallInbox).1 := by
  obtain ⟨messages, inboxes, mentions⟩ := fault
  cases messages with
  | failed reached text => exact .inl rfl
  | none => cases inboxes <;> cases mentions <;> exact .inr rfl

theorem recallMessage_mentionInboxes :
    (recallMessage args now fault s).2.mentionInboxes = s.mentionInboxes ∨
      (recallMessage args now fault s).2.mentionInboxes =
        (updateMany s.mentionInboxes fault.mentionInboxes
          (fun r => args.selects now r.recallFields) recallMention).1 := by
  obtain ⟨messages, inboxes, mentions⟩ := fault
  cases messages with
  | failed reached text => exact .inl rfl
  | none =>
    cases inboxes with
    | failed reached text => exact .inl rfl
    | none => cases mentions <;> exact .inr rfl

end

variable {args : RecallArgs} {now : Int} {fault : RecallFault} {s : Store}

theorem mem_recallMessage_messages {x : StoredMessage}
    (h : x ∈ (recallMessage args now fault s).2.messages.rows) :
    ∃ r ∈ s.messages.rows, r.copy = x.copy := by
  rw [recallMessage_messages] at h
  obtain ⟨r, hr, hx | hx⟩ := mem_updateMany h
  · exact ⟨r, hr, by rw [hx]⟩
  · exact ⟨r, hr, by rw [hx]; rfl⟩

theorem mem_recallMessage_inboxes {x : InboxMessage}
    (h : x ∈ (recallMessage args now fault s).2.inboxes.rows) :
    ∃ r ∈ s.inboxes.rows, r.copy = x.copy ∧ r.userID = x.userID := by
  rcases recallMessage_inboxes args now fault s with hsame | hup
  · rw [hsame] at h
    exact ⟨x, h, rfl, rfl⟩
  · rw [hup] at h
    obtain ⟨r, hr, hx | hx⟩ := mem_updateMany h
    · exact ⟨r, hr, by rw [hx], by rw [hx]⟩
    · exact ⟨r, hr, by rw [hx]; rfl, by rw [hx]; rfl⟩

theorem mem_recallMessage_mentionInboxes {x : MentionMessage}
    (h : x ∈ (recallMessage args now fault s).2.mentionInboxes.rows) :
    ∃ r ∈ s.mentionInboxes.rows, r.copy = x.copy := by
  rcases recallMessage_mentionInboxes args now fault s with hsame | hup
  · rw [hsame] at h
    exact ⟨x, h, rfl⟩
  · rw [hup] at h
    obtain ⟨r, hr, hx | hx⟩ := mem_updateMany h
    · exact ⟨r, hr, by rw [hx]⟩
    · exact ⟨r, hr, by rw [hx]; rfl⟩

theorem exists_mem_recallMessage_messages (args : RecallArgs) (now : Int) (fault : RecallFault)
    {r : StoredMessage} (h : r ∈ s.messages.rows) :
    ∃ x ∈ (recallMessage args now fault s).2.messages.rows, x.copy = r.copy := by
  rw [recallMessage_messages]
  obtain ⟨x, hx, heq | heq⟩ := exists_mem_updateMany fault.messages
    (fun r => args.selects now r.recallFields) recallStored h
  · exact ⟨x, hx, by rw [heq]⟩
  · exact ⟨x, hx, by rw [heq]; rfl⟩

end NonokaIM
