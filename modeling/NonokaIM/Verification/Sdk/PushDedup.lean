import NonokaIM.Library.HighWater
import NonokaIM.Model.SdkRealtime

/-! Which pushed messages reach the user's handler: those above the highest seq of their topic. -/

namespace NonokaIM.Sdk

open HighWater Message PushState

def pushKeys (ns : List Notification) : List (String × ℕ) :=
  ns.filterMap fun n => n.notify.map fun p => (p.topic, p.topicSeq)

def Message.key (m : Message) : String × ℕ := (m.topic, m.topicSeq)

theorem passes_seenSeqs {seenSeqs : String → Option ℕ} {topic : String} {q : ℕ} :
    passes seenSeqs (topic, q) = !(seenSeqs topic).any (q ≤ ·) := by
  cases h : seenSeqs topic with
  | none => simp [passes, h]
  | some m =>
    simp only [passes, h, Option.all_some, Option.any_some]
    by_cases hm : q ≤ m
    · simp [hm]
    · simp [hm, Nat.lt_of_not_ge hm]

theorem keys_foldl_handlePush (ns : List Notification) (rt : PushState) :
    (ns.foldl handlePush rt).invoked.map key =
      rt.invoked.map key ++ passed rt.seenSeqs (pushKeys ns) := by
  induction ns generalizing rt with
  | nil => simp [pushKeys, passed]
  | cons n ns ih =>
    rw [List.foldl_cons, ih]
    cases hn : n.notify with
    | none => simp [handlePush, pushKeys, hn]
    | some p =>
      have hkeys : pushKeys (n :: ns) = (p.topic, p.topicSeq) :: pushKeys ns := by
        simp [pushKeys, hn]
      have hpasses : passes rt.seenSeqs (p.topic, p.topicSeq) = _ := passes_seenSeqs
      rw [hkeys, passed]
      cases hseen : (rt.seenSeqs p.topic).any (p.topicSeq ≤ ·) with
      | true =>
        rw [hseen] at hpasses
        simp [handlePush, hn, hseen, hpasses, mark]
      | false =>
        rw [hseen] at hpasses
        simp [handlePush, hn, hseen, hpasses, mark, toSDKMessage, key]

/-- A new client calls the handler once for each distinct topic and seq, from 1 on, exactly when
every message that it has not received before comes with a seq above all earlier ones of its
topic. -/
theorem handler_called_once_iff (ns : List Notification) :
    (∀ k ∈ pushKeys ns, 1 ≤ k.2 → ((handlePushes ns).invoked.map key).count k = 1) ↔
      ∀ pre k post, pushKeys ns = pre ++ k :: post → 1 ≤ k.2 → k ∉ pre →
        ∀ k' ∈ pre, k'.1 = k.1 → k'.2 < k.2 := by
  have hkeys : (handlePushes ns).invoked.map key =
      passed (fun _ => none) (pushKeys ns) := keys_foldl_handlePush ns {}
  rw [hkeys]
  constructor
  · intro h pre k post heq hpos hfirst
    have hcount := h k (by simp [heq]) hpos
    exact (mem_passed_first heq hfirst).mp (count_passed_eq_one_iff.mp hcount)
  · intro h k hk hpos
    obtain ⟨pre, post, heq, hfirst⟩ := List.eq_append_cons_of_mem hk
    apply count_passed_eq_one_iff.mpr
    exact (mem_passed_first heq hfirst).mpr (h pre k post heq hpos hfirst)

def pushed (q : ℕ) : Notification where
  notify := some
    { msgID := 100 + q
      topic := "p2p_1_2"
      senderID := 1
      msgType := 0
      content := []
      timestamp := 0
      topicSeq := q
      clientMsgID := "" }

/-- Of two messages that overtake each other only the later one reaches the handler. -/
theorem overtaken_message_dropped :
    ("p2p_1_2", 1) ∈ pushKeys [pushed 2, pushed 1] ∧
    ((handlePushes [pushed 2, pushed 1]).invoked.map key).count ("p2p_1_2", 1) = 0 := by
  decide

end NonokaIM.Sdk
