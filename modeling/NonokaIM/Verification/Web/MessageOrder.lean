import NonokaIM.Library.GuardedRun
import NonokaIM.Library.SparseOrder
import NonokaIM.Verification.Web.Messages

/-! The order of the messages of a conversation, in which pending messages are in the way. -/

namespace NonokaIM.Web

open GuardedRun SparseOrder List ChatMessage Option

def seqs (messages : List ChatMessage) : List ℕ := keys seq messages

/-- The messages that have a number are in strictly ascending order. -/
def InOrder (messages : List ChatMessage) : Prop := Ascending seq messages

theorem seqs_eq_labels (messages : List ChatMessage) :
    seqs messages = (labels messages).filterMap Prod.snd := by
  rw [labels, filterMap_map]
  rfl

variable {messages : List ChatMessage} {msg : ChatMessage}

theorem inOrder_congr {messages' : List ChatMessage} (h : labels messages = labels messages') :
    InOrder messages ↔ InOrder messages' := by
  have hseqs : seqs messages = seqs messages' := by
    rw [seqs_eq_labels, seqs_eq_labels, h]
  change (seqs messages).Pairwise _ ↔ (seqs messages').Pairwise _
  rw [hseqs]

/-! ## Appending -/

def lastPending (messages : List ChatMessage) : Bool := messages.getLast?.any (·.seq = none)

theorem seq_not_mem_of_not_existsIn {q : ℕ} (hseq : msg.seq = some q)
    (hnew : ¬ msg.existsIn messages = true) : q ∉ seqs messages := by
  intro hq
  obtain ⟨m, hm, hmq⟩ := mem_filterMap.mp hq
  refine hnew (any_eq_true.mpr ⟨m, hm, ?_⟩)
  simp [hseq, hmq]

theorem inOrder_concat (h : InOrder messages) :
    InOrder (messages ++ [msg]) ↔ ∀ q ∈ msg.seq, ∀ j ∈ seqs messages, j < q :=
  ascending_concat.trans (and_iff_right h)

theorem inOrder_insertBySeq (h : InOrder messages) (hnew : ∀ q ∈ msg.seq, q ∉ seqs messages) :
    InOrder (insertBySeq messages msg) ↔
      (lastPending messages = true → ∀ q ∈ msg.seq, ∀ j ∈ seqs messages, j < q) := by
  unfold insertBySeq
  cases hseq : msg.seq with
  | none =>
    rw [inOrder_concat h, hseq]
    simp
  | some q =>
    have hnew' : q ∉ seqs messages := hnew q hseq
    have hconcat : InOrder (messages ++ [msg]) ↔ ∀ j ∈ seqs messages, j < q := by
      rw [inOrder_concat h, hseq]
      simp
    cases hlast : messages.getLast? with
    | none =>
      have hnil : messages = [] := getLast?_eq_none_iff.mp hlast
      simp only [bind_none, hconcat]
      simp [hnil, seqs]
    | some last =>
      cases hl : last.seq with
      | none => simp [hl, hconcat, lastPending, hlast]
      | some k =>
        have hpending : lastPending messages = false := by simp [lastPending, hlast, hl]
        simp only [bind_some, hl, hpending, Bool.false_eq_true, false_implies, iff_true]
        split
        · rename_i hkq
          rw [hconcat]
          intro j hj
          have hle : j ≤ q := (h.le_last hlast hl j hj).trans hkq
          exact lt_of_le_of_ne hle fun heq => hnew' (heq ▸ hj)
        · exact h.insert hseq hnew'

def Fits (messages : List ChatMessage) (msg : ChatMessage) : Prop :=
  msg.existsIn messages = true ∨
    (lastPending messages = true → ∀ q ∈ msg.seq, ∀ j ∈ seqs messages, j < q)

theorem inOrder_addMessage (h : InOrder messages) (msg : ChatMessage) :
    InOrder (addMessage messages msg) ↔ Fits messages msg := by
  unfold addMessage Fits
  by_cases hexists : msg.existsIn messages
  · simpa [hexists] using h
  · rw [if_neg hexists, or_iff_right hexists]
    exact inOrder_insertBySeq h fun q hq => seq_not_mem_of_not_existsIn hq hexists

theorem fits_of_pending (h : msg.seq = none) : Fits messages msg := by
  refine .inr fun _ q hq => ?_
  rw [h] at hq
  cases hq

/-- A receipt gives the message with the id a number between those of the messages around it. -/
def FitsReceipt (messages : List ChatMessage) (clientMsgId : String) (q : ℕ) : Prop :=
  let idx := messages.findIdx (·.clientMsgId = clientMsgId)
  idx < messages.length →
    (∀ j ∈ seqs (messages.take idx), j < q) ∧ ∀ j ∈ seqs (messages.drop (idx + 1)), q < j

theorem inOrder_patchMessage (h : InOrder messages) (clientMsgId : String) {p : MessagePatch}
    {q : ℕ} (hp : p.topicSeq = some (.number q)) :
    InOrder (patchMessage messages clientMsgId p) ↔ FitsReceipt messages clientMsgId q := by
  unfold patchMessage FitsReceipt
  generalize messages.findIdx (·.clientMsgId = clientMsgId) = idx
  by_cases hidx : idx < messages.length
  · have hseq : ((messages.get ⟨idx, hidx⟩).patch p).seq = some q := by
      simp [patch, seq, hp, JsInt.toNumber]
    have hrest : Ascending seq (messages.take idx ++ messages.drop (idx + 1)) := by
      refine h.sublist ?_
      rw [← eraseIdx_eq_take_drop_succ]
      exact eraseIdx_sublist messages idx
    rw [modify_eq_take_cons_drop hidx, InOrder, ascending_between]
    simp only [get_eq_getElem] at hseq
    simp only [hseq, mem_def, some.injEq, forall_eq', hidx, true_implies]
    exact and_iff_right hrest
  · have hsame : messages.modify idx (·.patch p) = messages :=
      modify_eq_self (Nat.le_of_not_lt hidx)
    rw [hsame]
    simpa [hidx] using h

theorem inOrder_sortBySeq (messages : List ChatMessage) :
    InOrder (sortBySeq messages) ↔ (seqs messages).Nodup :=
  ascending_iff_nodup (d := 0) (perm_insertionSort _ messages) (pairwise_insertionSort _ messages)

theorem seqs_newMsgs_disjoint (messages msgs : List ChatMessage) :
    ∀ q ∈ seqs (newMsgs messages msgs), q ∉ seqs messages := by
  intro q hq hmem
  obtain ⟨m, hm, hmq⟩ := mem_filterMap.mp hq
  have hkept := (mem_filter.mp hm).2
  simp only [hmq, any_some, Bool.and_eq_true, Bool.not_eq_true'] at hkept
  have hcontains : (messages.filterMap seq).contains q = true :=
    contains_iff_mem.mpr hmem
  rw [hcontains] at hkept
  cases hkept.1

theorem inOrder_prepend (h : InOrder messages) (msgs : List ChatMessage) :
    InOrder (sortBySeq (newMsgs messages msgs ++ messages)) ↔
      (seqs (newMsgs messages msgs)).Nodup := by
  have hnodup : (seqs messages).Nodup := Pairwise.imp ne_of_lt h
  rw [inOrder_sortBySeq, seqs, SparseOrder.keys_append, nodup_append']
  constructor
  · intro hall
    exact hall.1
  · intro hnew
    exact ⟨hnew, hnodup, fun q hq => seqs_newMsgs_disjoint messages msgs q hq⟩

/-! ## Runs -/

namespace ChatStore

def Ordered (s : ChatStore) : Prop := ∀ topic, InOrder (s.messages topic)

/-- The event puts or leaves the messages in order. -/
def KeepsOrder (user : Option JsInt) (s : ChatStore) : ChatEvent → Prop
  | .message detail =>
    Fits (s.messages detail.topic) (detail.toChatMessage ((user.map JsInt.toNumber).getD 0))
  | .sendReceipt topic clientMsgId _ topicSeq => FitsReceipt (s.messages topic) clientMsgId topicSeq
  | .latestPage _ reply => InOrder (reply.chatMessages user)
  | .olderPage topic reply => (seqs (newMsgs (s.messages topic) (reply.chatMessages user))).Nodup
  | _ => True

variable {s : ChatStore} {user : Option JsInt}

theorem ordered_listStep_iff (h : s.Ordered) (e : ChatEvent) :
    (∀ t, InOrder (listStep user s.messages e t)) ↔ s.KeepsOrder user e := by
  cases e with
  | message detail =>
    exact (forall_messages_update h _ _).trans (inOrder_addMessage (h detail.topic) _)
  | send out =>
    refine (forall_messages_update h _ _).trans ((inOrder_addMessage (h out.topic) _).trans ?_)
    exact iff_true_intro (fits_of_pending rfl)
  | sendReceipt topic clientMsgId msgId topicSeq =>
    exact (forall_messages_update h _ _).trans (inOrder_patchMessage (h topic) clientMsgId rfl)
  | latestPage topic reply => exact forall_messages_update h _ _
  | olderPage topic reply =>
    exact (forall_messages_update h _ _).trans (inOrder_prepend (h topic) _)
  | _ => exact iff_true_intro h

theorem ordered_chatStep_iff (h : s.Ordered) (e : ChatEvent) :
    (chatStep user s e).Ordered ↔ s.KeepsOrder user e := by
  rw [← ordered_listStep_iff h e]
  exact forall_congr' fun t => inOrder_congr (sameLabels_chatStep user s e t)

theorem ordered_empty : ({} : ChatStore).Ordered := fun _ => ascending_nil

end ChatStore

open ChatStore in
/-- The messages of all conversations are in order at every moment exactly if every pushed message
that is put behind a pending one has the largest number, every receipt numbers its message between
its neighbours, a first page is in order, and the new messages of an older page have different
numbers. -/
theorem messages_in_order_iff (user : Option JsInt) (events : List ChatEvent) :
    (∀ before, before <+: events → (run (chatStep user) {} before).Ordered) ↔
      Along (chatStep user) (KeepsOrder user) {} events := by
  rw [good_always_iff_along, and_iff_right ordered_empty]
  have hiff : ∀ s e, Ordered s → (Ordered (chatStep user s e) ↔ KeepsOrder user s e) :=
    fun _ e hs => ordered_chatStep_iff hs e
  have hstep : ∀ s e, Ordered s → Ordered (chatStep user s e) → Ordered (chatStep user s e) :=
    fun _ _ _ h => h
  exact along_congr hiff hstep ordered_empty

/-- The numbers of messages that an event reports, with the topic and the id of the message. -/
def ChatEvent.numbers : ChatEvent → List (String × String × ℕ)
  | .message detail =>
    [(detail.topic, messageKey detail.clientMsgId detail.topicSeq detail.msgId, detail.topicSeq)]
  | .sendReceipt topic clientMsgId _ topicSeq => [(topic, clientMsgId, topicSeq)]
  | .latestPage topic reply | .olderPage topic reply =>
    reply.messages.map fun m => (topic, messageKey m.clientMsgId m.topicSeq m.msgId, m.topicSeq)
  | _ => []

/-- Within a topic a message has one number, and different messages have different ones. -/
def OneNumberEach (events : List ChatEvent) : Prop :=
  (events.flatMap ChatEvent.numbers).Pairwise fun a b =>
    a.1 = b.1 → (a.2.1 = b.2.1 ↔ a.2.2 = b.2.2)

instance (events : List ChatEvent) : Decidable (OneNumberEach events) :=
  inferInstanceAs (Decidable (Pairwise _ _))

def sent (clientMsgId : String) : ChatEvent :=
  .send { clientMsgId, topic := "p2p_1_2", content := "", now := 0, ok := true }

def pushed (clientMsgId : String) (topicSeq : ℕ) : ChatEvent :=
  .message
    { msgId := topicSeq, topic := "p2p_1_2", senderId := 2, msgType := 1, content := ""
      timestamp := 0, topicSeq, clientMsgId }

def pulled (clientMsgId : String) (topicSeq : ℕ) : PulledMessage where
  msgId := topicSeq
  topic := "p2p_1_2"
  senderId := 2
  msgType := 1
  content := ""
  timestamp := 0
  topicSeq := topicSeq
  clientMsgId := clientMsgId

/-- A message that the peer sent first is put behind the pending one. -/
def numberedLate : List ChatEvent := [sent "a", pushed "b" 1, .sendReceipt "p2p_1_2" "a" 2 2]

/-- A message that arrives late is put behind the pending one. -/
def pushedLate : List ChatEvent := [pushed "b" 2, sent "a", pushed "c" 1]

/-- The sort after an older page was loaded moves the pending message to the front. -/
def numberedAfterSort : List ChatEvent :=
  [pushed "b" 2, sent "a", .olderPage "p2p_1_2" ⟨[pulled "c" 1], false⟩,
    .sendReceipt "p2p_1_2" "a" 3 3]

theorem pending_message_breaks_order :
    (OneNumberEach numberedLate ∧ OneNumberEach pushedLate ∧ OneNumberEach numberedAfterSort) ∧
      seqs ((run (chatStep none) {} numberedLate).messages "p2p_1_2") = [2, 1] ∧
      seqs ((run (chatStep none) {} pushedLate).messages "p2p_1_2") = [2, 1] ∧
      seqs ((run (chatStep none) {} numberedAfterSort).messages "p2p_1_2") =
        [3, 1, 2] := by
  decide

end NonokaIM.Web
