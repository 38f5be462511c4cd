import NonokaIM.Model.ChatHooks

/-! What the actions of the chat store do to the messages of the conversations. -/

namespace NonokaIM.Web

open List ChatStore ChatMessage

open Function (update)

namespace ChatStore

variable (s : ChatStore) (topic : String)

theorem messages_of_some {conv : Conversation} (h : s.conversations topic = some conv) :
    s.messages topic = conv.messages := by
  simp [messages, ensureConversation, h]

theorem messages_of_none (h : s.conversations topic = none) : s.messages topic = [] := by
  simp [messages, ensureConversation, h]

@[simp] theorem messages_setConversation (conv : Conversation) :
    (s.setConversation topic conv).messages = update s.messages topic conv.messages := by
  funext t
  by_cases ht : t = topic
  · subst t
    simp [messages, ensureConversation, setConversation]
  · simp [messages, ensureConversation, setConversation, ht]

theorem forall_messages_update {p : List ChatMessage → Prop} {lists : String → List ChatMessage}
    (h : ∀ t, p (lists t)) (topic : String) (messages : List ChatMessage) :
    (∀ t, p (update lists topic messages t)) ↔ p messages :=
  (Function.forall_update_iff lists fun _ => p).trans (and_iff_left fun t _ => h t)

@[simp] theorem messages_markTopicMentioned :
    (s.markTopicMentioned topic).messages = s.messages := rfl

@[simp] theorem messages_upsertConversation (p : ConversationPatch) :
    (s.upsertConversation topic p).messages =
      update s.messages topic (p.messages.getD (s.messages topic)) :=
  messages_setConversation s topic _

@[simp] theorem messages_setMessagesLoading (flag : Bool) :
    (s.setMessagesLoading topic flag).messages = s.messages := by
  rw [setMessagesLoading, messages_setConversation]
  exact Function.update_eq_self topic s.messages

@[simp] theorem messages_appendMessage (msg : ChatMessage) :
    (s.appendMessage topic msg).messages =
      update s.messages topic (addMessage (s.messages topic) msg) :=
  messages_setConversation s topic _

@[simp] theorem messages_prependMessages (msgs : List ChatMessage) (hasMore : Bool) :
    (s.prependMessages topic msgs hasMore).messages =
      update s.messages topic (sortBySeq (newMsgs (s.messages topic) msgs ++ s.messages topic)) :=
  messages_setConversation s topic _

theorem messages_edit {s' : ChatStore} (f : List ChatMessage → List ChatMessage) (hnil : f [] = [])
    (hnone : s.conversations topic = none → s' = s)
    (hsome : ∀ conv, s.conversations topic = some conv →
      s'.messages = update s.messages topic (f conv.messages)) :
    s'.messages = update s.messages topic (f (s.messages topic)) := by
  cases hconv : s.conversations topic with
  | none =>
    rw [hnone hconv, messages_of_none s topic hconv, hnil, ← messages_of_none s topic hconv,
      Function.update_eq_self]
  | some conv =>
    rw [hsome conv hconv, messages_of_some s topic hconv]

@[simp] theorem messages_updateMessageStatus (clientMsgId : String) (p : MessagePatch) :
    (s.updateMessageStatus topic clientMsgId p).messages =
      update s.messages topic (patchMessage (s.messages topic) clientMsgId p) := by
  refine messages_edit s topic (patchMessage · clientMsgId p) rfl ?_ ?_
  · intro hconv
    simp [updateMessageStatus, hconv]
  · intro conv hconv
    simp [updateMessageStatus, hconv, Conversation.patchStatus]

@[simp] theorem messages_recallMessage (topicSeq msgId : ℕ) :
    (s.recallMessage topic topicSeq msgId).messages =
      update s.messages topic ((s.messages topic).map (·.markRecalled topicSeq msgId)) := by
  refine messages_edit s topic (map (·.markRecalled topicSeq msgId)) rfl ?_ ?_
  · intro hconv
    simp [recallMessage, hconv]
  · intro conv hconv
    simp [recallMessage, hconv, Conversation.recalled]

@[simp] theorem messages_markTopicRead (upToSeq : JsInt) :
    (s.markTopicRead topic upToSeq).messages =
      update s.messages topic
        ((s.messages topic).map (·.markRead (s.ensureConversation topic).peerId upToSeq)) := by
  refine messages_edit s topic
    (map (·.markRead (s.ensureConversation topic).peerId upToSeq)) rfl ?_ ?_
  · intro hconv
    simp [markTopicRead, hconv]
  · intro conv hconv
    have hpeer : (s.ensureConversation topic).peerId = conv.peerId := by
      simp [ensureConversation, hconv]
    rw [hpeer, markTopicRead, hconv]
    exact messages_setConversation s topic _

theorem messages_setConversations {list : List Conversation}
    (hlist : ∀ conv ∈ list, conv.messages = []) :
    (s.setConversations list).messages = s.messages := by
  funext t
  cases hfind : list.reverse.find? (·.topic = t) with
  | none => simp [messages, ensureConversation, setConversations, hfind]
  | some conv =>
    have hconv : conv.messages = [] :=
      hlist conv (mem_reverse.mp (mem_of_find?_eq_some hfind))
    cases hold : s.conversations t with
    | none => simp [messages, ensureConversation, setConversations, hfind, hold, hconv]
    | some old => simp [messages, ensureConversation, setConversations, hfind, hold]

end ChatStore

theorem messages_listedConversations (convs : List ConversationInfo) (groups : List GroupInfo) :
    ∀ conv ∈ listedConversations convs groups, conv.messages = [] := by
  unfold listedConversations
  generalize hlist : convs.map (·.toConversation groups) = list
  have hempty : ∀ conv ∈ list, conv.messages = [] := by
    subst list
    intro conv hconv
    obtain ⟨info, -, rfl⟩ := mem_map.mp hconv
    rfl
  clear hlist
  induction groups generalizing list with
  | nil => exact hempty
  | cons g groups ih =>
    rw [foldl_cons]
    apply ih
    split
    · exact hempty
    intro conv hconv
    rcases mem_append.mp hconv with hconv | hconv
    · exact hempty conv hconv
    · rw [mem_singleton.mp hconv]

theorem insertBySeq_perm (messages : List ChatMessage) (msg : ChatMessage) :
    (insertBySeq messages msg).Perm (msg :: messages) := by
  have hlast : (messages ++ [msg]).Perm (msg :: messages) := perm_append_singleton msg messages
  unfold insertBySeq
  split
  · split
    · exact hlast
    · refine perm_middle.trans (Perm.cons msg ?_)
      rw [take_append_drop]
  · exact hlast

/-! ## Labels

Receipts and recalls change the status of a message, but not what it is found by. -/

def ChatMessage.label (m : ChatMessage) : String × Option ℕ := (m.clientMsgId, m.seq)

def labels (messages : List ChatMessage) : List (String × Option ℕ) :=
  messages.map label

variable {f : ChatMessage → ChatMessage}

theorem labels_map (hf : ∀ m, (f m).label = m.label)
    (messages : List ChatMessage) : labels (messages.map f) = labels messages := by
  rw [labels, map_map]
  exact map_congr_left fun m _ => hf m

theorem labels_modify (hf : ∀ m, (f m).label = m.label)
    (messages : List ChatMessage) (i : ℕ) : labels (messages.modify i f) = labels messages := by
  induction messages generalizing i with
  | nil => simp [labels]
  | cons m messages ih =>
    cases i with
    | zero => simp [labels, hf]
    | succ i => simpa [labels] using ih i

theorem label_markRead (peerId upToSeq : JsInt) (m : ChatMessage) :
    (m.markRead peerId upToSeq).label = m.label := by
  unfold ChatMessage.markRead
  split
  · rfl
  · rfl

theorem label_markRecalled (topicSeq msgId : ℕ) (m : ChatMessage) :
    (m.markRecalled topicSeq msgId).label = m.label := by
  unfold markRecalled
  split
  · rfl
  · rfl

theorem labels_patchMessage {p : MessagePatch} (hp : p.topicSeq = none)
    (messages : List ChatMessage) (clientMsgId : String) :
    labels (patchMessage messages clientMsgId p) = labels messages := by
  refine labels_modify ?_ messages _
  intro m
  simp [patch, label, seq, hp]

/-- The lists of messages after an event, up to the statuses. -/
def listStep (user : Option JsInt) (lists : String → List ChatMessage) :
    ChatEvent → String → List ChatMessage
  | .message detail =>
    update lists detail.topic (addMessage (lists detail.topic)
        (detail.toChatMessage ((user.map JsInt.toNumber).getD 0)))
  | .send out =>
    update lists out.topic (addMessage (lists out.topic) (out.toChatMessage user))
  | .sendReceipt topic clientMsgId msgId topicSeq =>
    update lists topic (patchMessage (lists topic) clientMsgId
        { msgId := some (.number msgId)
          topicSeq := some (.number topicSeq)
          status := some .sent })
  | .latestPage topic reply => update lists topic (reply.chatMessages user)
  | .olderPage topic reply =>
    update lists topic (sortBySeq (newMsgs (lists topic) (reply.chatMessages user) ++ lists topic))
  | _ => lists

def SameLabels (lists lists' : String → List ChatMessage) : Prop :=
  ∀ t, labels (lists t) = labels (lists' t)

theorem SameLabels.refl (lists : String → List ChatMessage) : SameLabels lists lists :=
  fun _ => rfl

theorem sameLabels_update {lists lists' : String → List ChatMessage} {topic : String}
    {messages : List ChatMessage} (h : SameLabels lists lists')
    (hmessages : labels messages = labels (lists topic)) :
    SameLabels (update lists topic messages) lists' := by
  intro t
  by_cases ht : t = topic
  · subst t
    rw [Function.update_self, hmessages]
    exact h topic
  · rw [Function.update_of_ne ht]
    exact h t

namespace ChatStore

variable (s : ChatStore) (user : Option JsInt) (topic : String)

theorem sameLabels_upsertConversation {p : ConversationPatch} (hp : p.messages = none) :
    SameLabels (s.upsertConversation topic p).messages s.messages := by
  rw [messages_upsertConversation, hp]
  exact sameLabels_update (.refl _) rfl

theorem sameLabels_markTopicRead (upToSeq : JsInt) :
    SameLabels (s.markTopicRead topic upToSeq).messages s.messages := by
  rw [messages_markTopicRead]
  exact sameLabels_update (.refl _) (labels_map (label_markRead _ _) _)

theorem sameLabels_updateStatus (clientMsgId : String) (status : MessageStatus) :
    SameLabels (s.updateMessageStatus topic clientMsgId { status := some status }).messages
      s.messages := by
  rw [messages_updateMessageStatus]
  exact sameLabels_update (.refl _) (labels_patchMessage rfl _ _)

theorem sameLabels_handleIncomingMessage (detail : RealtimeMessage) :
    SameLabels (s.handleIncomingMessage user detail).messages
      (listStep user s.messages (.message detail)) := by
  rw [listStep, ← messages_appendMessage, handleIncomingMessage]
  dsimp only
  split
  · exact sameLabels_markTopicRead _ _ _
  split
  · rw [messages_markTopicMentioned]
    split
    · exact .refl _
    · exact sameLabels_upsertConversation _ _ rfl
  · split
    · exact .refl _
    · exact sameLabels_upsertConversation _ _ rfl

end ChatStore

theorem sameLabels_chatStep (user : Option JsInt) (s : ChatStore) (e : ChatEvent) :
    SameLabels (chatStep user s e).messages (listStep user s.messages e) := by
  cases e with
  | opened topic => exact .refl _
  | message detail => exact s.sameLabels_handleIncomingMessage user detail
  | sendReceipt topic clientMsgId msgId topicSeq =>
    rw [chatStep, sendReceipt, messages_updateMessageStatus]
    exact .refl _
  | deliveryReceipt topic topicSeq =>
    rw [chatStep, deliveryReceipt]
    split
    · exact .refl _
    · split
      · exact .refl _
      · exact s.sameLabels_updateStatus _ _ _
  | readReceipt topic upToSeq => exact s.sameLabels_markTopicRead topic _
  | recalled topic topicSeq msgId =>
    rw [chatStep, messages_recallMessage]
    exact sameLabels_update (.refl _) (labels_map (label_markRecalled _ _) _)
  | send out =>
    rw [chatStep, ChatStore.sendMessage, messages_appendMessage]
    exact .refl _
  | retry topic msg ok =>
    rw [chatStep, retryMessage]
    split
    · have hsending := s.sameLabels_updateStatus topic msg.clientMsgId .sending
      split
      · exact hsending
      · intro t
        exact (sameLabels_updateStatus _ _ _ _ t).trans (hsending t)
    · exact .refl _
  | read topic =>
    rw [chatStep, ChatStore.markRead]
    split
    · exact .refl _
    · split
      · exact .refl _
      · exact s.sameLabels_markTopicRead _ _
  | newChat topic peerId username => exact s.sameLabels_upsertConversation topic rfl
  | loading topic flag =>
    rw [chatStep, messages_setMessagesLoading]
    exact .refl _
  | latestPage topic reply =>
    rw [chatStep, latestPage, messages_upsertConversation]
    exact .refl _
  | olderPage topic reply =>
    rw [chatStep, olderPage, messages_prependMessages]
    exact .refl _
  | refreshed convs groups =>
    rw [chatStep, refreshConversations,
      messages_setConversations s (messages_listedConversations convs groups)]
    exact .refl _

end NonokaIM.Web
