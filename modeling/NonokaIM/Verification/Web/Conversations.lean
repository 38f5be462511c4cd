import NonokaIM.Verification.Web.Messages

/-! What the actions of the chat store and its handlers do to one conversation. -/

namespace NonokaIM.Web

open Function (update)

def myId (user : Option JsInt) : ℕ := (user.map JsInt.toNumber).getD 0

namespace ChatStore

variable (s : ChatStore) (topic : String)

section

variable {s topic} {s' : ChatStore}

theorem ensureConversation_of_some {conv : Conversation} (h : s.conversations topic = some conv) :
    s.ensureConversation topic = conv := by
  rw [ensureConversation, h]
  rfl

theorem ensureConversation_update_self {conv : Conversation}
    (h : s'.conversations = update s.conversations topic (some conv)) :
    s'.ensureConversation topic = conv := by
  refine ensureConversation_of_some ?_
  rw [h, Function.update_self]

theorem ensureConversation_update_of_ne {t : String} {conv : Option Conversation}
    (h : s'.conversations = update s.conversations t conv) (ht : t ≠ topic) :
    s'.ensureConversation topic = s.ensureConversation topic := by
  rw [ensureConversation, h, Function.update_of_ne ht.symm]
  rfl

end

theorem conversations_appendMessage (msg : ChatMessage) :
    (s.appendMessage topic msg).conversations =
      update s.conversations topic (some ((s.ensureConversation topic).append msg)) := rfl

theorem ensureConversation_appendMessage (msg : ChatMessage) :
    (s.appendMessage topic msg).ensureConversation topic =
      (s.ensureConversation topic).append msg :=
  ensureConversation_update_self (s.conversations_appendMessage topic msg)

theorem conversations_upsertConversation (p : ConversationPatch) :
    (s.upsertConversation topic p).conversations =
      update s.conversations topic (some ((s.ensureConversation topic).patch p)) := rfl

theorem conversations_markTopicRead (upToSeq : JsInt) :
    (s.markTopicRead topic upToSeq).conversations =
      update s.conversations topic ((s.conversations topic).map (·.read upToSeq)) := by
  unfold markTopicRead
  cases hconv : s.conversations topic with
  | none => exact (Function.update_eq_self_iff.mpr hconv.symm).symm
  | some conv => rfl

theorem conversations_recallMessage (topicSeq msgId : ℕ) :
    (s.recallMessage topic topicSeq msgId).conversations =
      update s.conversations topic ((s.conversations topic).map (·.recalled topicSeq msgId)) := by
  unfold recallMessage
  cases hconv : s.conversations topic with
  | none => exact (Function.update_eq_self_iff.mpr hconv.symm).symm
  | some conv => rfl

theorem conversations_updateMessageStatus (clientMsgId : String) (p : MessagePatch) :
    (s.updateMessageStatus topic clientMsgId p).conversations =
      update s.conversations topic ((s.conversations topic).map (·.patchStatus clientMsgId p)) := by
  unfold updateMessageStatus
  cases hconv : s.conversations topic with
  | none => exact (Function.update_eq_self_iff.mpr hconv.symm).symm
  | some conv => rfl

/-- The conversation after a push: an open one is read at once, and in another one that was known
before the message counts as unread. -/
def afterPush (user : Option JsInt) (detail : RealtimeMessage) : Conversation :=
  let conv := (s.ensureConversation detail.topic).append (detail.toChatMessage (myId user))
  if s.activeTopic = some detail.topic then conv.read (.number detail.topicSeq)
  else
    { conv with
      unreadCount := (s.conversations detail.topic).elim 0 fun old => old.unreadCount + 1 }

theorem conversations_handleIncomingMessage (user : Option JsInt) (detail : RealtimeMessage) :
    (s.handleIncomingMessage user detail).conversations =
      update s.conversations detail.topic (some (s.afterPush user detail)) := by
  unfold handleIncomingMessage afterPush
  dsimp only
  split
  · rw [conversations_markTopicRead, conversations_appendMessage, Function.update_self,
      Function.update_idem]
    rfl
  · have hcounted : ∀ counted : ChatStore,
        (if (myId user ≠ 0 ∧ myId user ∈ detail.mentionedUserIds) ∧ detail.senderId ≠ myId user then
          counted.markTopicMentioned detail.topic else counted).conversations =
            counted.conversations := by
      intro counted
      split
      · rfl
      · rfl
    refine (hcounted _).trans ?_
    cases hconv : s.conversations detail.topic with
    | none =>
      have hzero : (s.ensureConversation detail.topic).unreadCount = 0 := by
        simp [ensureConversation, hconv]
      rw [Option.elim_none]
      exact congrArg (fun n => update s.conversations detail.topic (some
        { (s.ensureConversation detail.topic).append (detail.toChatMessage (myId user)) with
          unreadCount := n })) hzero
    | some conv =>
      rw [conversations_upsertConversation, ensureConversation_appendMessage,
        conversations_appendMessage, Function.update_idem]
      rfl

theorem activeTopic_updateMessageStatus (clientMsgId : String) (p : MessagePatch) :
    (s.updateMessageStatus topic clientMsgId p).activeTopic = s.activeTopic := by
  unfold updateMessageStatus
  split
  · rfl
  · rfl

theorem activeTopic_markTopicRead (upToSeq : JsInt) :
    (s.markTopicRead topic upToSeq).activeTopic = s.activeTopic := by
  unfold markTopicRead
  split
  · rfl
  · rfl

theorem activeTopic_recallMessage (topicSeq msgId : ℕ) :
    (s.recallMessage topic topicSeq msgId).activeTopic = s.activeTopic := by
  unfold recallMessage
  split
  · rfl
  · rfl

theorem activeTopic_handleIncomingMessage (user : Option JsInt) (detail : RealtimeMessage) :
    (s.handleIncomingMessage user detail).activeTopic = s.activeTopic := by
  unfold handleIncomingMessage
  dsimp only
  split
  · rw [activeTopic_markTopicRead]
    rfl
  · cases s.conversations detail.topic with
    | none | some conv => split <;> rfl

theorem activeTopic_deliveryReceipt (topicSeq : ℕ) :
    (s.deliveryReceipt topic topicSeq).activeTopic = s.activeTopic := by
  unfold deliveryReceipt
  split
  · rfl
  · split
    · rfl
    · rw [activeTopic_updateMessageStatus]

end ChatStore

theorem activeTopic_realtimeStep (user : Option JsInt) (s : ChatStore) (e : RealtimeEvent) :
    (realtimeStep user s e).activeTopic = s.activeTopic := by
  cases e with
  | message detail => exact s.activeTopic_handleIncomingMessage user detail
  | sendReceipt topic clientMsgId msgId topicSeq =>
    exact s.activeTopic_updateMessageStatus topic clientMsgId _
  | deliveryReceipt topic topicSeq => exact s.activeTopic_deliveryReceipt topic topicSeq
  | readReceipt topic upToSeq readerId => exact s.activeTopic_markTopicRead topic _
  | recallNotice topic topicSeq msgId => exact s.activeTopic_recallMessage topic topicSeq msgId

def emptyChat : ChatStore :=
  ({} : ChatStore).upsertConversation "p2p_1_2" { peerId := some (.number 2) }

end NonokaIM.Web
