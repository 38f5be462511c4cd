import NonokaIM.Verification.Web.Conversations

/-! What events change in the messages of a conversation: each brings at most one message, and
numbers, delivers, reads or recalls some. -/

namespace NonokaIM.Web

open ChatStore Function Option List ChatMessage

inductive StatusEvent where
  | packet (e : RealtimeEvent)
  | send (out : Outgoing)
  | read (topic : String)
  | opened (topic : Option String)

def StatusEvent.toChatEvent : StatusEvent → ChatEvent
  | .packet e => e.toChatEvent
  | .send out => .send out
  | .read topic => .read topic
  | .opened topic => .opened topic

def statusStep (user : Option JsInt) (s : ChatStore) (e : StatusEvent) : ChatStore :=
  chatStep user s e.toChatEvent

def byId (messages : List ChatMessage) (id : String) : Option ChatMessage :=
  messages.find? (·.clientMsgId = id)

section

variable (messages : List ChatMessage)

theorem byId_map {f : ChatMessage → ChatMessage} (hf : ∀ m, (f m).clientMsgId = m.clientMsgId)
    (id : String) : byId (messages.map f) id = (byId messages id).map f := by
  rw [byId, find?_map]
  congr 2
  funext m
  rw [comp_apply, hf]

def ChatMessage.patchIf (clientMsgId : String) (p : MessagePatch) (m : ChatMessage) : ChatMessage :=
  if m.clientMsgId = clientMsgId then m.patch p else m

theorem clientMsgId_of_byId {messages : List ChatMessage} {id : String} {m : ChatMessage}
    (h : byId messages id = some m) : m.clientMsgId = id := by
  simpa using find?_some h

theorem byId_cons (m : ChatMessage) (id : String) :
    byId (m :: messages) id = if m.clientMsgId = id then some m else byId messages id := by
  rw [byId, find?_cons]
  split
  · rename_i hid
    rw [if_pos (of_decide_eq_true hid)]
  · rename_i hid
    rw [if_neg (of_decide_eq_false hid)]
    rfl

theorem byId_append (messages' : List ChatMessage) (id : String) :
    byId (messages ++ messages') id = (byId messages id).or (byId messages' id) :=
  find?_append

theorem patchMessage_cons (m : ChatMessage) (clientMsgId : String) (p : MessagePatch) :
    patchMessage (m :: messages) clientMsgId p =
      if m.clientMsgId = clientMsgId then m.patch p :: messages
      else m :: patchMessage messages clientMsgId p := by
  unfold patchMessage
  rw [findIdx_cons]
  by_cases hid : m.clientMsgId = clientMsgId
  · simp [hid]
  · simp [hid]

theorem byId_patchMessage (clientMsgId : String) (p : MessagePatch) (id : String) :
    byId (patchMessage messages clientMsgId p) id =
      (byId messages id).map (·.patchIf clientMsgId p) := by
  induction messages with
  | nil => rfl
  | cons m messages ih =>
    rw [patchMessage_cons, byId_cons messages]
    split
    · rename_i hpatch
      rw [byId_cons, show (m.patch p).clientMsgId = m.clientMsgId from rfl]
      split
      · rw [map_some, patchIf, if_pos hpatch]
      rename_i hid
      -- the others have another id
      cases hfound : byId messages id with
      | none => rfl
      | some m' =>
        have hne : m'.clientMsgId ≠ clientMsgId := by
          rw [clientMsgId_of_byId hfound, ← hpatch]
          exact Ne.symm hid
        rw [map_some, patchIf, if_neg hne]
    · rename_i hpatch
      rw [byId_cons, ih]
      by_cases hid : m.clientMsgId = id
      · rw [if_pos hid, if_pos hid, map_some, patchIf, if_neg hpatch]
      · rw [if_neg hid, if_neg hid]

theorem insertBySeq_eq_take_drop (msg : ChatMessage) :
    ∃ n, insertBySeq messages msg = messages.take n ++ msg :: messages.drop n := by
  have hlast : ∃ n, messages ++ [msg] = messages.take n ++ msg :: messages.drop n :=
    ⟨messages.length, by simp⟩
  unfold insertBySeq
  split
  · split
    · exact hlast
    · exact ⟨_, rfl⟩
  · exact hlast

theorem byId_addMessage (msg : ChatMessage) (id : String) :
    byId (addMessage messages msg) id =
      (byId messages id).or
        (if msg.existsIn messages = false ∧ msg.clientMsgId = id then some msg else none) := by
  unfold addMessage
  cases hexists : msg.existsIn messages with
  | true => simp
  | false =>
    obtain ⟨n, hn⟩ := insertBySeq_eq_take_drop messages msg
    rw [if_neg Bool.false_ne_true, hn, byId_append, byId_cons]
    have hsplit : byId messages id =
        (byId (messages.take n) id).or (byId (messages.drop n) id) := by
      rw [← byId_append, take_append_drop]
    by_cases hid : msg.clientMsgId = id
    · have hnone : byId messages id = none := by
        refine find?_eq_none.mpr fun m hm hfound => ?_
        have hnew := any_eq_false.mp hexists m hm
        simp [hfound, hid] at hnew
      have hfront : byId (messages.take n) id = none :=
        (or_eq_none_iff.mp (hsplit.symm.trans hnone)).1
      rw [if_pos hid, if_pos ⟨rfl, hid⟩, hnone, hfront]
    · rw [if_neg hid, if_neg fun h => hid h.2, or_none, hsplit]

end

section

variable (user : Option JsInt) (topic : String) (s : ChatStore)

/-- The message that the event brings to the topic. -/
def arrival : StatusEvent → Option ChatMessage
  | .packet (.message detail) =>
    if detail.topic = topic then some (detail.toChatMessage (myId user)) else none
  | .send out => if out.topic = topic then some (out.toChatMessage user) else none
  | _ => none

def arrived (e : StatusEvent) : List ChatMessage :=
  (arrival user topic e).elim (s.messages topic) (addMessage (s.messages topic))

/-- What an event does to the messages of a topic. -/
inductive Effect where
  | keep
  | sent (clientMsgId : String) (msgId topicSeq : ℕ)
  | delivered (clientMsgId : String)
  | read (upToSeq : JsInt)
  | recalled (topicSeq msgId : ℕ)

def Effect.apply (peerId : JsInt) (m : ChatMessage) : Effect → ChatMessage
  | .keep => m
  | .sent clientMsgId msgId topicSeq =>
    m.patchIf clientMsgId
      { msgId := some (.number msgId)
        topicSeq := some (.number topicSeq)
        status := some .sent }
  | .delivered clientMsgId => m.patchIf clientMsgId { status := some .delivered }
  | .read upToSeq => m.markRead peerId upToSeq
  | .recalled topicSeq msgId => m.markRecalled topicSeq msgId

def packetEffect : RealtimeEvent → Effect
  | .message detail =>
    if detail.topic = topic ∧ s.activeTopic = some topic then .read (.number detail.topicSeq)
    else .keep
  | .sendReceipt t clientMsgId msgId topicSeq =>
    if t = topic then .sent clientMsgId msgId topicSeq else .keep
  | .deliveryReceipt t topicSeq =>
    if t = topic then
      ((s.messages topic).find? (·.topicSeq = some (.number topicSeq))).elim .keep fun msg =>
        if msg.status = .read then .keep
        else .delivered msg.clientMsgId
    else .keep
  | .readReceipt t upToSeq _ => if t = topic then .read (.number upToSeq) else .keep
  | .recallNotice t topicSeq msgId => if t = topic then .recalled topicSeq msgId else .keep

def effect : StatusEvent → Effect
  | .packet e => packetEffect topic s e
  | .read t =>
    if t = topic then
      (s.conversations topic).elim .keep fun conv =>
        if conv.lastSeq = .number 0 ∨ conv.unreadCount = 0 then .keep else .read conv.lastSeq
    else .keep
  | .send _ | .opened _ => .keep

def afterEvent (e : StatusEvent) (id : String) : Option ChatMessage :=
  (byId (arrived user topic s e) id).map fun m =>
    (effect topic s e).apply (s.ensureConversation topic).peerId m

section

variable {topic s}

theorem clientMsgId_markRead (peerId upToSeq : JsInt) (m : ChatMessage) :
    (m.markRead peerId upToSeq).clientMsgId = m.clientMsgId :=
  congrArg Prod.fst (label_markRead peerId upToSeq m)

theorem clientMsgId_markRecalled (topicSeq msgId : ℕ) (m : ChatMessage) :
    (m.markRecalled topicSeq msgId).clientMsgId = m.clientMsgId :=
  congrArg Prod.fst (label_markRecalled topicSeq msgId m)

theorem map_keep {o : Option ChatMessage} {peerId : JsInt} :
    (o.map fun m => Effect.keep.apply peerId m) = o :=
  map_id'

theorem byId_updateMessageStatus (clientMsgId : String) (p : MessagePatch) (id : String) :
    byId ((s.updateMessageStatus topic clientMsgId p).messages topic) id =
      (byId (s.messages topic) id).map (·.patchIf clientMsgId p) := by
  rw [messages_updateMessageStatus, update_self]
  exact byId_patchMessage _ _ _ id

theorem byId_markTopicRead (upToSeq : JsInt) (id : String) :
    byId ((s.markTopicRead topic upToSeq).messages topic) id =
      (byId (s.messages topic) id).map fun m =>
        (Effect.read upToSeq).apply (s.ensureConversation topic).peerId m := by
  rw [messages_markTopicRead, update_self]
  exact byId_map _ (clientMsgId_markRead _ _) id

theorem byId_message (detail : RealtimeMessage) (id : String) :
    byId ((s.handleIncomingMessage user detail).messages topic) id =
      afterEvent user topic s (.packet (.message detail)) id := by
  have hconv := s.conversations_handleIncomingMessage user detail
  rw [messages, afterEvent, arrived, arrival, effect, packetEffect]
  by_cases ht : detail.topic = topic
  · subst topic
    rw [ensureConversation_update_self hconv, if_pos rfl, afterPush]
    split
    · rename_i hactive
      rw [if_pos ⟨rfl, hactive⟩]
      exact byId_map _ (clientMsgId_markRead _ _) id
    · rename_i hactive
      rw [if_neg fun h => hactive h.2, map_keep]
      rfl
  · rw [ensureConversation_update_of_ne hconv ht, if_neg ht, if_neg fun h => ht h.1, map_keep]
    rfl

theorem byId_deliveryReceipt (t : String) (topicSeq : ℕ) (id : String) :
    byId ((s.deliveryReceipt t topicSeq).messages topic) id =
      afterEvent user topic s (.packet (.deliveryReceipt t topicSeq)) id := by
  rw [afterEvent, effect, packetEffect, deliveryReceipt]
  by_cases ht : t = topic
  · subst t
    rw [if_pos rfl]
    cases (s.messages topic).find? (·.topicSeq = some (.number topicSeq)) with
    | none => exact map_keep.symm
    | some msg =>
      dsimp only [elim_some]
      split
      · exact map_keep.symm
      · exact byId_updateMessageStatus _ _ id
  · rw [if_neg ht, map_keep]
    split
    · rfl
    split
    · rfl
    · rw [messages_updateMessageStatus, update_of_ne (Ne.symm ht)]
      rfl

theorem byId_markRead (t : String) (id : String) :
    byId ((s.markRead t).messages topic) id = afterEvent user topic s (.read t) id := by
  rw [afterEvent, effect, ChatStore.markRead]
  by_cases ht : t = topic
  · subst t
    rw [if_pos rfl]
    cases s.conversations topic with
    | none => exact map_keep.symm
    | some conv =>
      dsimp only [elim_some]
      split
      · exact map_keep.symm
      · exact byId_markTopicRead _ id
  · rw [if_neg ht, map_keep]
    split
    · rfl
    split
    · rfl
    · rw [messages_markTopicRead, update_of_ne (Ne.symm ht)]
      rfl

theorem byId_packet (e : RealtimeEvent) (id : String) :
    byId ((realtimeStep user s e).messages topic) id =
      afterEvent user topic s (.packet e) id := by
  cases e with
  | message detail => exact byId_message user detail id
  | sendReceipt t clientMsgId msgId topicSeq =>
    change byId ((s.updateMessageStatus t clientMsgId _).messages topic) id = _
    rw [afterEvent, effect, packetEffect]
    split
    · rename_i ht
      subst t
      exact byId_updateMessageStatus _ _ id
    · rename_i ht
      rw [messages_updateMessageStatus, update_of_ne (Ne.symm ht), map_keep]
      rfl
  | deliveryReceipt t topicSeq => exact byId_deliveryReceipt user t topicSeq id
  | readReceipt t upToSeq readerId =>
    change byId ((s.markTopicRead t (.number upToSeq)).messages topic) id = _
    rw [afterEvent, effect, packetEffect]
    split
    · rename_i ht
      subst t
      exact byId_markTopicRead _ id
    · rename_i ht
      rw [messages_markTopicRead, update_of_ne (Ne.symm ht), map_keep]
      rfl
  | recallNotice t topicSeq msgId =>
    change byId ((s.recallMessage t topicSeq msgId).messages topic) id = _
    rw [afterEvent, effect, packetEffect, messages_recallMessage]
    split
    · rename_i ht
      subst t
      rw [update_self]
      exact byId_map _ (clientMsgId_markRecalled _ _) id
    · rename_i ht
      rw [update_of_ne (Ne.symm ht), map_keep]
      rfl

end

theorem byId_statusStep (e : StatusEvent) (id : String) :
    byId ((statusStep user s e).messages topic) id = afterEvent user topic s e id := by
  cases e with
  | packet e => exact byId_packet user e id
  | send out =>
    change byId ((s.appendMessage out.topic _).messages topic) id = _
    rw [afterEvent, effect, map_keep, arrived, arrival, messages_appendMessage]
    split
    · rename_i ht
      rw [ht, update_self]
      rfl
    · rename_i ht
      rw [update_of_ne (Ne.symm ht)]
      rfl
  | read t => exact byId_markRead user t id
  | opened t => exact map_keep.symm

end

end NonokaIM.Web
