import NonokaIM.Verification.Web.Conversations
import NonokaIM.Verification.Web.MessageOrder

/-! The preview of a conversation in the list: what arrives last is shown, not what is newest. -/

namespace NonokaIM.Web

open GuardedRun SparseOrder ChatStore Web.Conversation List

/-- A pushed message, or the notice that one was recalled. -/
inductive ListEvent where
  | message (detail : RealtimeMessage)
  | recallNotice (topic : String) (topicSeq msgId : ℕ)

def ListEvent.toRealtimeEvent : ListEvent → RealtimeEvent
  | .message detail => .message detail
  | .recallNotice topic topicSeq msgId => .recallNotice topic topicSeq msgId

def listEventStep (user : Option JsInt) (s : ChatStore) (e : ListEvent) : ChatStore :=
  realtimeStep user s e.toRealtimeEvent

def newest (messages : List ChatMessage) : List ChatMessage := top ChatMessage.seq messages

def Conversation.ShowsNewest (conv : Conversation) : Prop :=
  ∀ m ∈ newest conv.messages,
    conv.lastMsgPreview = some (previewForMessage m) ∧ conv.lastMsgAt = some m.timestamp

def LooksLike (m msg : ChatMessage) : Prop :=
  previewForMessage m = previewForMessage msg ∧ m.timestamp = msg.timestamp
  deriving Decidable

theorem seq_markRead (peerId upToSeq : JsInt) (m : ChatMessage) :
    (m.markRead peerId upToSeq).seq = m.seq :=
  congrArg Prod.snd (label_markRead peerId upToSeq m)

theorem seq_markRecalled (topicSeq msgId : ℕ) (m : ChatMessage) :
    (m.markRecalled topicSeq msgId).seq = m.seq :=
  congrArg Prod.snd (label_markRecalled topicSeq msgId m)

theorem looksLike_markRead (peerId upToSeq : JsInt) (m : ChatMessage) :
    LooksLike (m.markRead peerId upToSeq) m := by
  unfold ChatMessage.markRead
  split
  · exact ⟨rfl, rfl⟩
  · exact ⟨rfl, rfl⟩

theorem timestamp_markRecalled (topicSeq msgId : ℕ) (m : ChatMessage) :
    (m.markRecalled topicSeq msgId).timestamp = m.timestamp := by
  unfold ChatMessage.markRecalled
  split
  · rfl
  · rfl

section

variable (conv : Conversation)

theorem showsNewest_append (msg : ChatMessage) {q : ℕ} (hseq : msg.seq = some q) :
    (conv.append msg).ShowsNewest ↔
      (¬ msg.existsIn conv.messages = true ∧ ∀ j ∈ seqs conv.messages, j < q) ∨
        ∀ m ∈ newest conv.messages, LooksLike m msg := by
  have hlooks : ∀ m, ((conv.append msg).lastMsgPreview = some (previewForMessage m) ∧
      (conv.append msg).lastMsgAt = some m.timestamp) ↔ LooksLike m msg := by
    intro m
    rw [LooksLike, eq_comm, @eq_comm ℕ]
    exact and_congr (Option.some_inj.trans Iff.rfl) Option.some_inj
  unfold ShowsNewest
  simp only [hlooks]
  change (∀ m ∈ newest (addMessage conv.messages msg), LooksLike m msg) ↔ _
  unfold addMessage
  split
  · rename_i hexists
    simp [hexists]
  · rename_i hexists
    have hnew : q ∉ seqs conv.messages := seq_not_mem_of_not_existsIn hseq hexists
    have hperm : ∀ m, m ∈ newest (insertBySeq conv.messages msg) ↔
        m ∈ newest (msg :: conv.messages) :=
      fun m => mem_top_of_perm (insertBySeq_perm conv.messages msg)
    simp only [hperm]
    by_cases habove : ∀ j ∈ seqs conv.messages, j < q
    · refine iff_of_true (fun m hm => ?_) (.inl ⟨hexists, habove⟩)
      rw [(mem_top_cons_of_above hseq habove).mp hm]
      exact ⟨rfl, rfl⟩
    · rw [or_iff_right fun h => habove h.2]
      push Not at habove
      obtain ⟨j, hj, hqj⟩ := habove
      have hlt : q < j := lt_of_le_of_ne hqj fun h => hnew (h ▸ hj)
      exact forall_congr' fun m => imp_congr_left (mem_top_cons_of_below hseq hj hlt)

theorem showsNewest_read (upToSeq : JsInt) :
    (conv.read upToSeq).ShowsNewest ↔ conv.ShowsNewest := by
  change (∀ m ∈ newest (conv.messages.map _), _) ↔ _
  rw [newest, top_map (seq_markRead conv.peerId upToSeq), forall_mem_map]
  refine forall₂_congr fun m _ => ?_
  obtain ⟨hpreview, htime⟩ := looksLike_markRead conv.peerId upToSeq m
  rw [hpreview, htime]
  rfl

theorem showsNewest_recalled (h : conv.ShowsNewest) (topicSeq msgId : ℕ) :
    (conv.recalled topicSeq msgId).ShowsNewest ↔
      ∀ m ∈ newest conv.messages,
        previewForMessage (m.markRecalled topicSeq msgId) = recalledText := by
  change (∀ m ∈ newest (conv.messages.map _), _) ↔ _
  rw [newest, top_map (seq_markRecalled topicSeq msgId), forall_mem_map]
  refine forall₂_congr fun m hm => ?_
  rw [timestamp_markRecalled]
  constructor
  · intro hshows
    exact (Option.some.inj hshows.1).symm
  · intro hpreview
    exact ⟨congrArg some hpreview.symm, (h m hm).2⟩

end

section

variable (user : Option JsInt) (topic : String)

def ChatStore.ShowsNewest (s : ChatStore) : Prop := (s.ensureConversation topic).ShowsNewest

/-- The event leaves the newest message in the list. -/
def KeepsNewest (s : ChatStore) : ListEvent → Prop
  | .message detail =>
    detail.topic = topic →
      (¬ (detail.toChatMessage (myId user)).existsIn (s.messages topic) = true ∧
          ∀ j ∈ seqs (s.messages topic), j < detail.topicSeq) ∨
        ∀ m ∈ newest (s.messages topic), LooksLike m (detail.toChatMessage (myId user))
  | .recallNotice t topicSeq msgId =>
    t = topic →
      ∀ m ∈ newest (s.messages topic),
        previewForMessage (m.markRecalled topicSeq msgId) = recalledText

variable {user topic} {s : ChatStore}

theorem showsNewest_afterPush (detail : RealtimeMessage) :
    (s.afterPush user detail).ShowsNewest ↔
      ((s.ensureConversation detail.topic).append
        (detail.toChatMessage (myId user))).ShowsNewest := by
  unfold afterPush
  split
  · exact showsNewest_read _ _
  · rfl

theorem showsNewest_listEventStep (h : s.ShowsNewest topic) (e : ListEvent) :
    (listEventStep user s e).ShowsNewest topic ↔ KeepsNewest user topic s e := by
  cases e with
  | message detail =>
    have hconv := s.conversations_handleIncomingMessage user detail
    change (ensureConversation (s.handleIncomingMessage user detail) topic).ShowsNewest ↔ _
    rw [KeepsNewest]
    by_cases ht : detail.topic = topic
    · subst topic
      rw [ensureConversation_update_self hconv, showsNewest_afterPush,
        showsNewest_append _ _ rfl, forall_prop_of_true rfl]
      rfl
    · rw [ensureConversation_update_of_ne hconv ht]
      exact iff_of_true h fun heq => absurd heq ht
  | recallNotice t topicSeq msgId =>
    have hconv := s.conversations_recallMessage t topicSeq msgId
    change (ensureConversation (s.recallMessage t topicSeq msgId) topic).ShowsNewest ↔ _
    rw [KeepsNewest]
    by_cases ht : t = topic
    · subst topic
      rw [forall_prop_of_true rfl]
      cases hknown : s.conversations t with
      | none =>
        rw [ChatStore.recallMessage, hknown, s.messages_of_none t hknown]
        exact iff_of_true h fun m hm => absurd hm not_mem_nil
      | some conv =>
        rw [hknown] at hconv
        rw [ensureConversation_update_self hconv, s.messages_of_some t hknown]
        rw [ChatStore.ShowsNewest, ensureConversation_of_some hknown] at h
        exact showsNewest_recalled conv h topicSeq msgId
    · rw [ensureConversation_update_of_ne hconv ht]
      exact iff_of_true h fun heq => absurd heq ht

end

/-- The list shows the newest message of a conversation at every moment exactly if every push is
new and above all held messages or looks like the newest one, and every recall recalls the newest
one or finds it recalled. -/
theorem list_preview_iff (user : Option JsInt) (topic : String) (s : ChatStore)
    (hempty : s.messages topic = []) (events : List ListEvent) :
    (∀ before, before <+: events →
        (run (listEventStep user) s before).ShowsNewest topic) ↔
      Along (listEventStep user) (KeepsNewest user topic) s events := by
  have hstart : s.ShowsNewest topic := by
    intro m hm
    rw [show (s.ensureConversation topic).messages = [] from hempty] at hm
    exact absurd hm not_mem_nil
  rw [good_always_iff_along, and_iff_right hstart]
  exact along_congr (fun _ e hs => showsNewest_listEventStep hs e) (fun _ _ _ h => h) hstart

instance (user : Option JsInt) (topic : String) (s : ChatStore) :
    (e : ListEvent) → Decidable (KeepsNewest user topic s e)
  | .message _ => inferInstanceAs (Decidable (_ → (_ ∨ _)))
  | .recallNotice _ _ _ => inferInstanceAs (Decidable (_ → _))

def said (topicSeq : ℕ) (content : String) : ListEvent :=
  .message
    { msgId := topicSeq, topic := "p2p_1_2", senderId := 2, msgType := 1, content
      timestamp := topicSeq, topicSeq }

theorem recalled_newest_shown :
    (run (listEventStep none) {}
      [said 1 "a", said 2 "b", .recallNotice "p2p_1_2" 2 2]).ShowsNewest "p2p_1_2" := by
  have hempty : ({} : ChatStore).messages "p2p_1_2" = [] := rfl
  exact (list_preview_iff none "p2p_1_2" {} hempty
    [said 1 "a", said 2 "b", .recallNotice "p2p_1_2" 2 2]).mpr (by decide) _ prefix_rfl

def shown (events : List ListEvent) : (Option String × Option ℕ) × List (String × ℕ) :=
  let conv := (run (listEventStep none) {} events).ensureConversation "p2p_1_2"
  ((conv.lastMsgPreview, conv.lastMsgAt),
    (newest conv.messages).map fun m => (previewForMessage m, m.timestamp))

/-- A late push, the recall of an older message and a repeated push after a recall. -/
theorem older_message_shown :
    shown [said 2 "b", said 1 "a"] = ((some "a", some 1), [("b", 2)]) ∧
      shown [said 1 "a", said 2 "b", .recallNotice "p2p_1_2" 1 1] =
        ((some recalledText, some 2), [("b", 2)]) ∧
      shown [said 1 "a", .recallNotice "p2p_1_2" 1 1, said 1 "a"] =
        ((some "a", some 1), [(recalledText, 1)]) := by
  decide

end NonokaIM.Web
