import NonokaIM.Verification.Web.Messages

/-! Messages that arrive before the first page, which replaces the list. -/

namespace NonokaIM.Web

open List Function LoadState

/-- A message that is pushed or that the user sends. -/
inductive Arrival where
  | push (detail : RealtimeMessage)
  | send (out : Outgoing)

namespace Arrival

def toEvent : Arrival → ChatEvent
  | .push detail => .message detail
  | .send out => .send out

def topic : Arrival → String
  | .push detail => detail.topic
  | .send out => out.topic

def message (user : Option JsInt) : Arrival → ChatMessage
  | .push detail => detail.toChatMessage ((user.map JsInt.toNumber).getD 0)
  | .send out => out.toChatMessage user

end Arrival

/-- The messages that are appended to a conversation. -/
def appended (user : Option JsInt) (topic : String) (arrivals : List Arrival) : List ChatMessage :=
  (arrivals.filter (·.topic = topic)).map (·.message user)

/-! ## Appending loses nothing -/

variable (messages : List ChatMessage) (msg : ChatMessage)

theorem existsIn_eq_labels :
    msg.existsIn messages =
      (labels messages).any fun l =>
        l.1 = msg.clientMsgId || (msg.seq.isSome && l.2 = msg.seq) := by
  rw [labels, any_map]
  rfl

theorem existsIn_congr {messages messages' : List ChatMessage}
    (h : labels messages = labels messages') :
    msg.existsIn messages = msg.existsIn messages' := by
  rw [existsIn_eq_labels, existsIn_eq_labels, h]

theorem existsIn_of_subset {messages messages' : List ChatMessage} {msg : ChatMessage}
    (hsub : messages ⊆ messages') (h : msg.existsIn messages = true) :
    msg.existsIn messages' = true := by
  obtain ⟨m, hm, hfound⟩ := any_eq_true.mp h
  exact any_eq_true.mpr ⟨m, hsub hm, hfound⟩

theorem existsIn_of_mem {messages : List ChatMessage} {msg : ChatMessage} (h : msg ∈ messages) :
    msg.existsIn messages = true :=
  any_eq_true.mpr ⟨msg, h, by simp⟩

theorem subset_addMessage : messages ⊆ addMessage messages msg := by
  unfold addMessage
  split
  · exact List.Subset.refl messages
  · intro m hm
    exact (insertBySeq_perm messages msg).mem_iff.mpr (mem_cons_of_mem msg hm)

theorem existsIn_addMessage : msg.existsIn (addMessage messages msg) = true := by
  unfold addMessage
  split
  · assumption
  · exact existsIn_of_mem ((insertBySeq_perm messages msg).mem_iff.mpr mem_cons_self)

theorem listStep_arrival (user : Option JsInt) (lists : String → List ChatMessage) (a : Arrival) :
    listStep user lists a.toEvent =
      update lists a.topic (addMessage (lists a.topic) (a.message user)) := by
  cases a with
  | push detail | send out => rfl

section

variable {user : Option JsInt} {topic : String} {m : ChatMessage}

theorem existsIn_step {s : ChatStore} (a : Arrival) (h : m.existsIn (s.messages topic) = true) :
    m.existsIn ((chatStep user s a.toEvent).messages topic) = true := by
  rw [existsIn_congr m (sameLabels_chatStep user s a.toEvent topic), listStep_arrival]
  by_cases ht : topic = a.topic
  · subst topic
    rw [update_self]
    exact existsIn_of_subset (subset_addMessage _ _) h
  · rwa [update_of_ne ht]

theorem existsIn_step_self (s : ChatStore) (a : Arrival) :
    (a.message user).existsIn ((chatStep user s a.toEvent).messages a.topic) = true := by
  rw [existsIn_congr _ (sameLabels_chatStep user s a.toEvent a.topic), listStep_arrival,
    update_self]
  exact existsIn_addMessage _ _

def afterArrivals (user : Option JsInt) (s : ChatStore) (arrivals : List Arrival) : ChatStore :=
  (arrivals.map Arrival.toEvent).foldl (chatStep user) s

theorem existsIn_afterArrivals {s : ChatStore} {arrivals : List Arrival}
    (h : m.existsIn (s.messages topic) = true) :
    m.existsIn ((afterArrivals user s arrivals).messages topic) = true := by
  induction arrivals generalizing s with
  | nil => exact h
  | cons a arrivals ih => exact ih (existsIn_step a h)

theorem appended_existsIn (s : ChatStore) (arrivals : List Arrival) :
    ∀ m ∈ appended user topic arrivals,
      m.existsIn ((afterArrivals user s arrivals).messages topic) = true := by
  induction arrivals generalizing s with
  | nil => simp [appended]
  | cons a arrivals ih =>
    intro m hm
    change m.existsIn
      ((afterArrivals user (chatStep user s a.toEvent) arrivals).messages topic) = true
    by_cases ha : a.topic = topic
    · subst topic
      rw [appended, filter_cons_of_pos (by simp), map_cons, mem_cons] at hm
      rcases hm with rfl | hm
      · exact existsIn_afterArrivals (existsIn_step_self s a)
      · exact ih _ m hm
    · rw [appended, filter_cons_of_neg (by simpa using ha)] at hm
      exact ih _ m hm

end

/-! ## The reply -/

namespace LoadState

variable (h : LoadState) (user : Option JsInt) (topic : String)

theorem messages_finishLatest_none :
    (h.finishLatest user topic none).store.messages = h.store.messages := by
  simp [finishLatest]

theorem messages_finishLatest_some (reply : PullReply) :
    (h.finishLatest user topic (some reply)).store.messages topic = reply.chatMessages user := by
  simp [finishLatest, ChatStore.latestPage]

end LoadState

/-- Every message that arrives between the request for the first page and its reply is in the
conversation afterwards, under its id or its number, exactly if the page has it, or no page is
requested or the request fails. -/
theorem arrivals_kept_iff (h : LoadState) (user : Option JsInt) (topic : String)
    (arrivals : List Arrival) (reply : Option PullReply) :
    (∀ m ∈ appended user topic arrivals,
        m.existsIn ((h.loadLatest user topic (arrivals.map Arrival.toEvent) reply).store.messages
          topic) = true) ↔
      (h.requests user topic = true → ∀ page ∈ reply, ∀ m ∈ appended user topic arrivals,
        m.existsIn (page.chatMessages user) = true) := by
  unfold loadLatest
  split
  · rename_i hrequests
    cases reply with
    | none =>
      rw [messages_finishLatest_none]
      exact iff_of_true (appended_existsIn _ arrivals) (by simp)
    | some page =>
      rw [messages_finishLatest_some]
      simp [hrequests]
  · rename_i hrequests
    exact iff_of_true (appended_existsIn h.store arrivals) (fun hr => absurd hr hrequests)

def justOpened : LoadState where
  store := { activeTopic := some "p2p_1_2" }

def sentMeanwhile : Arrival :=
  .send { clientMsgId := "a", topic := "p2p_1_2", content := "hi", now := 0, ok := true }

def pushedMeanwhile : Arrival :=
  .push
    { msgId := 2, topic := "p2p_1_2", senderId := 2, msgType := 1, content := "second"
      timestamp := 0, topicSeq := 2, clientMsgId := "b" }

def oldPage : PullReply where
  messages :=
    [{ msgId := 1, topic := "p2p_1_2", senderId := 2, msgType := 1, content := "first"
       timestamp := 0, topicSeq := 1, clientMsgId := "c" }]
  hasMore := false

/-- What the user sends and what is pushed while the page is on its way is gone. -/
theorem arrivals_lost_behind_page :
    justOpened.requests (some (.text 1)) "p2p_1_2" = true ∧
      labels ((justOpened.loadLatest (some (.text 1)) "p2p_1_2"
        [sentMeanwhile.toEvent, pushedMeanwhile.toEvent] none).store.messages "p2p_1_2") =
          [("a", none), ("b", some 2)] ∧
      labels ((justOpened.loadLatest (some (.text 1)) "p2p_1_2"
        [sentMeanwhile.toEvent, pushedMeanwhile.toEvent] (some oldPage)).store.messages
          "p2p_1_2") = [("c", some 1)] := by
  decide

end NonokaIM.Web
