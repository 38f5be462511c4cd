import Mathlib.Data.Finset.Card
import Mathlib.Data.Finset.Dedup
import Mathlib.Data.Finset.SDiff
import NonokaIM.Verification.Web.Conversations
import NonokaIM.Verification.Web.MessageOrder

/-! The unread messages of a conversation that is not open: the store counts pushes, and a receipt
clears the count. -/

namespace NonokaIM.Web

open GuardedRun List ChatStore Finset Function

variable (user : Option JsInt) (topic : String)

def ChatStore.unreadCount (s : ChatStore) : ℕ := (s.ensureConversation topic).unreadCount

/-! ## The counter -/

def ChatStore.counter (s : ChatStore) : Option ℕ := (s.conversations topic).map (·.unreadCount)

/-- What an event does to the count of a conversation that is not open. -/
def counterStep (count : Option ℕ) : RealtimeEvent → Option ℕ
  | .message detail => if detail.topic = topic then some (count.elim 0 (· + 1)) else count
  | .readReceipt t _ _ => if t = topic then count.map fun _ => 0 else count
  | _ => count

section

variable {topic} {s : ChatStore}

theorem ChatStore.unreadCount_eq_counter : s.unreadCount topic = (s.counter topic).getD 0 := by
  unfold unreadCount counter ensureConversation
  cases s.conversations topic with
  | none | some conv => rfl

theorem counter_update {s' : ChatStore} {t : String} {conv : Option Conversation}
    (h : s'.conversations = update s.conversations t conv) :
    s'.counter topic = if t = topic then conv.map (·.unreadCount) else s.counter topic := by
  unfold counter
  rw [h]
  split
  · rename_i ht
    rw [ht, update_self]
  · rename_i ht
    rw [update_of_ne (Ne.symm ht)]

theorem counter_updateMessageStatus (t clientMsgId : String) (p : MessagePatch) :
    (s.updateMessageStatus t clientMsgId p).counter topic = s.counter topic := by
  rw [counter_update (s.conversations_updateMessageStatus t clientMsgId p), Option.map_map]
  split
  · rename_i ht
    rw [← ht]
    rfl
  · rfl

theorem counter_realtimeStep (hactive : s.activeTopic ≠ some topic) (e : RealtimeEvent) :
    (realtimeStep user s e).counter topic = counterStep topic (s.counter topic) e := by
  cases e with
  | message detail =>
    change (s.handleIncomingMessage user detail).counter topic = _
    rw [counter_update (s.conversations_handleIncomingMessage user detail), counterStep]
    split
    · rename_i ht
      subst topic
      rw [Option.map_some, afterPush, if_neg hactive, counter]
      cases s.conversations detail.topic with
      | none | some conv => rfl
    · rfl
  | sendReceipt t clientMsgId msgId topicSeq => exact counter_updateMessageStatus t clientMsgId _
  | deliveryReceipt t topicSeq =>
    change (s.deliveryReceipt t topicSeq).counter topic = s.counter topic
    unfold deliveryReceipt
    split
    · rfl
    · split
      · rfl
      · exact counter_updateMessageStatus t _ _
  | readReceipt t upToSeq readerId =>
    change (s.markTopicRead t (.number upToSeq)).counter topic = _
    rw [counter_update (s.conversations_markTopicRead t _), counterStep, Option.map_map]
    split
    · rename_i ht
      rw [← ht, counter, Option.map_map]
      rfl
    · rfl
  | recallNotice t topicSeq msgId =>
    change (s.recallMessage t topicSeq msgId).counter topic = s.counter topic
    rw [counter_update (s.conversations_recallMessage t topicSeq msgId), Option.map_map]
    split
    · rename_i ht
      rw [← ht]
      rfl
    · rfl

theorem counter_run (hactive : s.activeTopic ≠ some topic) (events : List RealtimeEvent) :
    (run (realtimeStep user) s events).counter topic =
      run (counterStep topic) (s.counter topic) events := by
  induction events generalizing s with
  | nil => rfl
  | cons e events ih =>
    rw [run_cons, run_cons, ih (by rwa [activeTopic_realtimeStep]),
      counter_realtimeStep user hactive]

end

/-! ## The messages that count -/

/-- The number of a message that another user has sent to the topic. -/
def RealtimeEvent.fromOther : RealtimeEvent → Option ℕ
  | .message detail =>
    if detail.topic = topic ∧ detail.senderId ≠ myId user then some detail.topicSeq else none
  | _ => none

def RealtimeEvent.isPush : RealtimeEvent → Bool
  | .message detail => detail.topic = topic
  | _ => false

/-- The numbers of the messages of others that the store did not hold. -/
def newFromOthers (s : ChatStore) (events : List RealtimeEvent) : Finset ℕ :=
  (events.filterMap (·.fromOther user topic)).toFinset \ (seqs (s.messages topic)).toFinset

def KnownAfter (s : ChatStore) (events : List RealtimeEvent) : Prop :=
  (s.conversations topic).isSome = true ∨ events.any (·.isPush topic) = true
  deriving Decidable

def CountsRight (s : ChatStore) (before : List RealtimeEvent) : RealtimeEvent → Prop
  | .message detail =>
    detail.topic = topic →
      (KnownAfter topic s before ↔
        detail.senderId ≠ myId user ∧ detail.topicSeq ∉ seqs (s.messages topic) ∧
          detail.topicSeq ∉ newFromOthers user topic s before)
  | .readReceipt t _ _ =>
    t = topic →
      KnownAfter topic s before →
        s.unreadCount topic + (newFromOthers user topic s before).card = 0
  | _ => True

section

variable {user topic} {s : ChatStore} {before : List RealtimeEvent} (count : Option ℕ)

theorem isSome_counterStep (e : RealtimeEvent) :
    (counterStep topic count e).isSome = (count.isSome || e.isPush topic) := by
  cases e with
  | message detail =>
    rw [counterStep, RealtimeEvent.isPush]
    split
    · rename_i ht
      simp [ht]
    · rename_i ht
      simp [ht]
  | readReceipt t upToSeq readerId =>
    change (if t = topic then count.map fun _ => 0 else count).isSome = (count.isSome || false)
    rw [Bool.or_false]
    split
    · exact Option.isSome_map
    · rfl
  | _ => exact (Bool.or_false _).symm

theorem isSome_run_counterStep (events : List RealtimeEvent) :
    (run (counterStep topic) count events).isSome =
      (count.isSome || events.any (·.isPush topic)) := by
  induction events generalizing count with
  | nil => simp
  | cons e events ih => rw [run_cons, ih, isSome_counterStep, any_cons, Bool.or_assoc]

theorem knownAfter_iff :
    KnownAfter topic s before ↔
      (run (counterStep topic) (s.counter topic) before).isSome = true := by
  rw [isSome_run_counterStep, Bool.or_eq_true, counter, Option.isSome_map]
  rfl

theorem newFromOthers_concat_none {e : RealtimeEvent} (he : e.fromOther user topic = none) :
    newFromOthers user topic s (before ++ [e]) = newFromOthers user topic s before := by
  simp [newFromOthers, filterMap_append, he]

theorem newFromOthers_concat_some {e : RealtimeEvent} {q : ℕ}
    (he : e.fromOther user topic = some q) :
    newFromOthers user topic s (before ++ [e]) =
      if q ∈ seqs (s.messages topic) then newFromOthers user topic s before
      else insert q (newFromOthers user topic s before) := by
  have happend : (filterMap (·.fromOther user topic) (before ++ [e])).toFinset =
      insert q (before.filterMap (·.fromOther user topic)).toFinset := by
    rw [filterMap_append, toFinset_append, union_comm]
    simp [he]
  rw [newFromOthers, happend]
  split
  · rename_i hheld
    exact insert_sdiff_of_mem _ (mem_toFinset.mpr hheld)
  · rename_i hheld
    exact insert_sdiff_of_notMem _ fun h => hheld (mem_toFinset.mp h)

theorem card_newFromOthers_message (detail : RealtimeMessage) (ht : detail.topic = topic) :
    (newFromOthers user topic s (before ++ [.message detail])).card =
      (newFromOthers user topic s before).card +
        if detail.senderId ≠ myId user ∧ detail.topicSeq ∉ seqs (s.messages topic) ∧
            detail.topicSeq ∉ newFromOthers user topic s before then 1 else 0 := by
  by_cases hsender : detail.senderId ≠ myId user
  · have hother : (RealtimeEvent.message detail).fromOther user topic = some detail.topicSeq :=
      if_pos ⟨ht, hsender⟩
    rw [newFromOthers_concat_some hother]
    split
    · rename_i hheld
      rw [if_neg fun h => h.2.1 hheld, Nat.add_zero]
    · rename_i hheld
      by_cases hnew : detail.topicSeq ∈ newFromOthers user topic s before
      · rw [insert_eq_of_mem hnew, if_neg fun h => h.2.2 hnew, Nat.add_zero]
      · rw [card_insert_of_notMem hnew, if_pos ⟨hsender, hheld, hnew⟩]
  · have hother : (RealtimeEvent.message detail).fromOther user topic = none :=
      if_neg fun h => hsender h.2
    rw [newFromOthers_concat_none hother, if_neg fun h => hsender h.1, Nat.add_zero]

theorem getD_counterStep_message (detail : RealtimeMessage) (ht : detail.topic = topic) :
    (counterStep topic count (.message detail)).getD 0 =
      count.getD 0 + if count.isSome = true then 1 else 0 := by
  rw [counterStep, if_pos ht]
  cases count with
  | none | some n => rfl

theorem ite_one_zero_eq_iff {p q : Prop} [Decidable p] [Decidable q] :
    (if p then 1 else 0) = (if q then 1 else 0) ↔ (p ↔ q) := by
  by_cases hp : p
  · simp [hp]
  · simp [hp]

theorem counts_right_iff (e : RealtimeEvent)
    (hbefore : (run (counterStep topic) (s.counter topic) before).getD 0 =
      s.unreadCount topic + (newFromOthers user topic s before).card) :
    (run (counterStep topic) (s.counter topic) (before ++ [e])).getD 0 =
        s.unreadCount topic + (newFromOthers user topic s (before ++ [e])).card ↔
      CountsRight user topic s before e := by
  rw [run_append, run_cons, run_nil]
  cases e with
  | message detail =>
    rw [CountsRight, knownAfter_iff]
    by_cases ht : detail.topic = topic
    · rw [getD_counterStep_message _ detail ht, card_newFromOthers_message detail ht, hbefore,
        forall_prop_of_true ht, ← Nat.add_assoc, Nat.add_left_cancel_iff, ite_one_zero_eq_iff]
    · have hother : (RealtimeEvent.message detail).fromOther user topic = none :=
        if_neg fun h => ht h.1
      rw [newFromOthers_concat_none hother, counterStep, if_neg ht]
      exact iff_of_true hbefore fun h => absurd h ht
  | readReceipt t upToSeq readerId =>
    have hother : newFromOthers user topic s (before ++ [.readReceipt t upToSeq readerId]) =
        newFromOthers user topic s before := newFromOthers_concat_none rfl
    rw [CountsRight, knownAfter_iff, hother, counterStep]
    by_cases ht : t = topic
    · rw [if_pos ht, forall_prop_of_true ht]
      cases hcount : run (counterStep topic) (s.counter topic) before with
      | none =>
        rw [hcount] at hbefore
        exact iff_of_true hbefore fun h => absurd h Bool.false_ne_true
      | some n =>
        rw [forall_prop_of_true Option.isSome_some]
        exact eq_comm
    · rw [if_neg ht]
      exact iff_of_true hbefore fun h => absurd h ht
  | _ => exact iff_of_true (by rwa [newFromOthers_concat_none rfl]) trivial

end

/-- The count is right at every moment exactly if every push to a known conversation is a new
message of another user, no such message makes a conversation known, and no receipt arrives while
something is unread. -/
theorem unread_count_iff (s : ChatStore) (hactive : s.activeTopic ≠ some topic)
    (events : List RealtimeEvent) :
    (∀ before, before <+: events →
        (run (realtimeStep user) s before).unreadCount topic =
          s.unreadCount topic + (newFromOthers user topic s before).card) ↔
      ∀ before e, before ++ [e] <+: events → CountsRight user topic s before e := by
  simp only [unreadCount_eq_counter, counter_run user hactive]
  refine good_prefixes_iff ?_ ?_
  · simp [newFromOthers]
  · intro before e hbefore
    rw [← unreadCount_eq_counter] at hbefore ⊢
    exact counts_right_iff e hbefore

def pushFrom (senderId topicSeq : ℕ) : RealtimeEvent :=
  .message
    { msgId := topicSeq, topic := "p2p_1_2", senderId, msgType := 1, content := ""
      timestamp := 0, topicSeq }

instance (s : ChatStore) (before : List RealtimeEvent) :
    (e : RealtimeEvent) → Decidable (CountsRight user topic s before e)
  | .message _ => inferInstanceAs (Decidable (_ → (_ ↔ _)))
  | .readReceipt _ _ _ => inferInstanceAs (Decidable (_ → _ → _))
  | .sendReceipt _ _ _ _ | .deliveryReceipt _ _ | .recallNotice _ _ _ =>
    inferInstanceAs (Decidable True)

/-- Two messages of the peer that arrive in the wrong order count. -/
theorem late_push_counted :
    (run (realtimeStep (some (.number 1))) emptyChat
        [pushFrom 2 2, pushFrom 2 1]).unreadCount "p2p_1_2" = 2 := by
  have hactive : emptyChat.activeTopic ≠ some "p2p_1_2" := by decide
  refine ((unread_count_iff (some (.number 1)) "p2p_1_2" emptyChat hactive
    [pushFrom 2 2, pushFrom 2 1]).mpr ?_ _ prefix_rfl).trans (by decide)
  rw [forall_concat_prefix_iff]
  decide

/-- The first push is not counted, a repeated one is counted again, one's own is counted, and the
peer's receipt clears the count. -/
theorem unread_count_wrong :
    ({} : ChatStore).activeTopic ≠ some "p2p_1_2" ∧ emptyChat.activeTopic ≠ some "p2p_1_2" ∧
      (run (realtimeStep (some (.number 1))) {} [pushFrom 2 1]).unreadCount "p2p_1_2" =
        0 ∧
      (newFromOthers (some (.number 1)) "p2p_1_2" {} [pushFrom 2 1]).card = 1 ∧
      (run (realtimeStep (some (.number 1))) emptyChat
        [pushFrom 2 1, pushFrom 2 1]).unreadCount "p2p_1_2" = 2 ∧
      (newFromOthers (some (.number 1)) "p2p_1_2" emptyChat [pushFrom 2 1, pushFrom 2 1]).card =
        1 ∧
      (run (realtimeStep (some (.number 1))) emptyChat [pushFrom 1 1]).unreadCount "p2p_1_2" = 1 ∧
      (newFromOthers (some (.number 1)) "p2p_1_2" emptyChat [pushFrom 1 1]).card = 0 ∧
      (run (realtimeStep (some (.number 1))) emptyChat
        [pushFrom 2 1, .readReceipt "p2p_1_2" 0 2]).unreadCount "p2p_1_2" = 0 ∧
      (newFromOthers (some (.number 1)) "p2p_1_2" emptyChat
        [pushFrom 2 1, .readReceipt "p2p_1_2" 0 2]).card = 1 := by
  decide

end NonokaIM.Web
