import NonokaIM.Verification.Pull.Pages
import NonokaIM.Verification.Topic.Canonical

/-! Paging forward: the next pull starts strictly above `next_seq`, which is one more than the last
seq, so that a message with that seq is passed over. -/

namespace NonokaIM

open DocumentStore SeqPages List PullMessage

/-- The pull of a user who may read the topic, while no query fails. -/
structure Authorised (ctx : PullContext) (topic canonical : String) : Prop where
  authed : ctx.authed = true
  access : ∃ canAccess, ctx.canAccessTopic = some canAccess ∧ canAccess canonical = true
  topic : normalizeTopic topic = .ok canonical
  faultless : ctx.fault = {}

variable {topic : String} {lastSeq : ℕ}

theorem handlePull_forward {ctx : PullContext} {canonical : String}
    (h : Authorised ctx topic canonical) (s : Store) (hlast : 0 < lastSeq)
    (hseq : lastSeq < 2 ^ 63) (limit : Int) :
    handlePull ctx s (some { topic, lastSeq, limit }) =
      .ok ⟨page s ctx.userID canonical lastSeq limit,
        limit ≤ (page s ctx.userID canonical lastSeq limit).length ∧ 0 < limit,
        ((page s ctx.userID canonical lastSeq limit).getLast?.map (·.topicSeq + 1)).getD 0⟩ := by
  obtain ⟨canAccess, hauth, haccess⟩ := h.access
  have hne : topic ≠ "" := by
    rintro rfl
    have := h.topic
    cases this
  simp [handlePull, h.authed, hne, h.topic, hauth, haccess, Nat.ne_of_gt hlast,
    forwardPage_eq h.faultless (parseTopicType_normalizeTopic h.topic) s hseq]

/-! ## All replies -/

/-- The seqs from which a run of pulls can go on: no query overflows. -/
structure InRange (s : Store) (userID : Int) (topic : String) (lastSeq : ℕ) : Prop where
  start : lastSeq < 2 ^ 63
  next : ∀ m ∈ visibleMessages s userID topic, m.topicSeq + 1 < 2 ^ 63

theorem InRange.after_page {s : Store} {userID : Int}
    (h : InRange s userID topic lastSeq) {limit : Int} {m : PullMessage}
    (hm : m ∈ page s userID topic lastSeq limit) : InRange s userID topic (m.topicSeq + 1) :=
  ⟨h.next m (mem_page s userID topic lastSeq hm).1, h.next⟩

/-- Pull again from `next_seq` while the reply says that there are more messages. -/
def pullAll (ctx : PullContext) (s : Store) (topic : String) (limit : Int) :
    ℕ → ℕ → Option (List PullMessage)
  | 0, _ => none
  | fuel + 1, lastSeq =>
    match handlePull ctx s (some { topic, lastSeq, limit }) with
    | .error _ => none
    | .ok reply =>
      if reply.hasMore then
        (pullAll ctx s topic limit fuel reply.nextSeq).map (reply.messages ++ ·)
      else some reply.messages

/-- Every visible message above the seq is there, once and in ascending order. The messages of a
topic are told apart by their seqs. -/
structure ReturnsAll (s : Store) (userID : Int) (topic : String) (lastSeq : ℕ)
    (messages : List PullMessage) : Prop where
  ascending : (messages.map topicSeq).Pairwise (· < ·)
  visible : ∀ m ∈ messages, m ∈ visibleMessages s userID topic ∧ lastSeq < m.topicSeq
  complete : ∀ m ∈ visibleMessages s userID topic, lastSeq < m.topicSeq →
    ∃ m' ∈ messages, m'.topicSeq = m.topicSeq

theorem returnsAll_iff {s : Store} {userID : Int} {messages : List PullMessage}
    (h : ∀ m ∈ messages, m ∈ visibleMessages s userID topic ∧ lastSeq < m.topicSeq) :
    ReturnsAll s userID topic lastSeq messages ↔
      messages.map topicSeq = SeqPages.after lastSeq (visibleSeqs s userID topic) := by
  have hstrict := after_pairwise (visibleSeqs_strict s userID topic) lastSeq
  constructor
  · intro hall
    apply hall.ascending.eq_of_mem_iff hstrict
    intro seq
    rw [mem_map, mem_after, mem_visibleSeqs_iff]
    constructor
    · rintro ⟨m, hm, rfl⟩
      exact ⟨⟨m, (h m hm).1, rfl⟩, (h m hm).2⟩
    · rintro ⟨⟨m, hm, rfl⟩, hlt⟩
      exact hall.complete m hm hlt
  · intro heq
    refine ⟨heq ▸ hstrict, h, ?_⟩
    intro m hm hlt
    have hmem : m.topicSeq ∈ SeqPages.after lastSeq (visibleSeqs s userID topic) :=
      mem_after.mpr ⟨(mem_visibleSeqs_iff s userID topic).mpr ⟨m, hm, rfl⟩, hlt⟩
    rw [← heq] at hmem
    exact mem_map.mp hmem

section

variable {ctx : PullContext} {topic canonical : String} (h : Authorised ctx topic canonical)
  (s : Store) {limit : Int}
include h

variable {lastSeq : ℕ}

theorem pullAll_visible {fuel : ℕ} (hlast : 0 < lastSeq)
    (hr : InRange s ctx.userID canonical lastSeq) {messages : List PullMessage}
    (hrun : pullAll ctx s topic limit fuel lastSeq = some messages) :
    ∀ m ∈ messages, m ∈ visibleMessages s ctx.userID canonical ∧ lastSeq < m.topicSeq := by
  induction fuel generalizing lastSeq messages with
  | zero => cases hrun
  | succ fuel ih =>
    intro m hm
    simp only [pullAll, handlePull_forward h s hlast hr.start, decide_eq_true_eq] at hrun
    split at hrun
    · rename_i hmore
      obtain ⟨later, hlater, rfl⟩ := Option.map_eq_some_iff.mp hrun
      rcases mem_append.mp hm with hm | hm
      · exact mem_page s ctx.userID canonical lastSeq hm
      · -- a full page has a last message, and the next pull starts above it
        have hne : page s ctx.userID canonical lastSeq limit ≠ [] := by
          apply ne_nil_of_length_pos
          omega
        have hlt := (mem_page s ctx.userID canonical lastSeq (getLast_mem hne)).2
        rw [getLast?_eq_some_getLast hne, Option.map_some, Option.getD_some] at hlater
        have hnext := ih (Nat.succ_pos _) (hr.after_page (getLast_mem hne)) hlater m hm
        exact ⟨hnext.1, by omega⟩
    · cases hrun
      exact mem_page s ctx.userID canonical lastSeq hm

theorem pullAll_seqs (hlimit : 0 < limit ∧ limit ≤ 100) (fuel : ℕ) (hlast : 0 < lastSeq)
    (hr : InRange s ctx.userID canonical lastSeq) :
    (pullAll ctx s topic limit fuel lastSeq).map (map topicSeq) =
      pages limit.toNat (doubled (storedTwice s ctx.userID canonical)
        (visibleSeqs s ctx.userID canonical)) fuel lastSeq := by
  induction fuel generalizing lastSeq with
  | zero => rfl
  | succ fuel ih =>
    have hseqs := page_seqs s ctx.userID canonical lastSeq hlimit
    have hlen := congrArg length hseqs
    rw [length_map] at hlen
    simp only [pullAll, handlePull_forward h s hlast hr.start, pages, ← hseqs, decide_eq_true_eq,
      length_map, getLast?_map, Option.map_map]
    by_cases hmore : limit ≤ (page s ctx.userID canonical lastSeq limit).length
    · rw [if_pos ⟨hmore, hlimit.1⟩, if_pos (by omega)]
      have hne : page s ctx.userID canonical lastSeq limit ≠ [] := by
        apply ne_nil_of_length_pos
        omega
      rw [getLast?_eq_some_getLast hne]
      simp only [Option.map_some, Option.getD_some, Function.comp_apply,
        ← ih (Nat.succ_pos _) (hr.after_page (getLast_mem hne)), Option.map_map]
      congr 1
      funext later
      exact map_append
    · rw [if_neg (fun hm => hmore hm.1), if_neg (by omega)]
      rfl

theorem pullAll_default (hlimit : ¬ (0 < limit ∧ limit ≤ 100)) (fuel : ℕ) (hlast : 0 < lastSeq)
    (hseq : lastSeq < 2 ^ 63) :
    pullAll ctx s topic limit (fuel + 1) lastSeq =
      some (page s ctx.userID canonical lastSeq limit) := by
  have hlen := mergedPage_length s ctx.userID canonical lastSeq limit
  rw [clampLimit_default hlimit, ← page_default s ctx.userID canonical lastSeq hlimit] at hlen
  simp only [pullAll, handlePull_forward h s hlast hseq, decide_eq_true_eq]
  rw [if_neg (by omega)]

end

/-! ## Completeness -/

/-- The limit is in range, every mention ends a page and no page is followed by the next seq; or the
limit is another one, and each seq is among the first fifty of one collection only. -/
def PagesFit (s : Store) (userID : Int) (topic : String) (lastSeq : ℕ) (limit : Int) : Prop :=
  if 0 < limit ∧ limit ≤ 100 then
    Fits (storedTwice s userID topic) limit.toNat
      (SeqPages.after lastSeq (visibleSeqs s userID topic))
  else
    ∀ seq ∈ SeqPages.after lastSeq (visibleSeqs s userID topic),
      (seq ∈ (SeqPages.after lastSeq (mainSeqs s userID topic)).take 50 ↔
        seq ∉ (SeqPages.after lastSeq (mentionSeqs s userID topic)).take 50)

theorem page_default_complete_iff (s : Store) (userID : Int) (topic : String) (lastSeq : ℕ)
    {limit : Int} (hlimit : ¬ (0 < limit ∧ limit ≤ 100)) :
    (page s userID topic lastSeq limit).map topicSeq =
        SeqPages.after lastSeq (visibleSeqs s userID topic) ↔
      PagesFit s userID topic lastSeq limit := by
  have hmain := (after_pairwise (mainSeqs_nodup s userID topic) lastSeq).sublist (take_sublist 50 _)
  have hmention := (after_pairwise (mentionSeqs_nodup s userID topic) lastSeq).sublist
    (take_sublist 50 _)
  rw [PagesFit, if_neg hlimit, page_seqs_default s userID topic lastSeq hlimit]
  apply sort_append_eq_iff hmain hmention (after_pairwise (visibleSeqs_strict s userID topic) _)
  intro seq hseq
  rw [mem_after, mem_visibleSeqs]
  rcases hseq with hseq | hseq
  · have hmem := mem_after.mp (mem_of_mem_take hseq)
    exact ⟨.inl hmem.1, hmem.2⟩
  · have hmem := mem_after.mp (mem_of_mem_take hseq)
    exact ⟨.inr hmem.1, hmem.2⟩

/-- Pulling all pages forward returns every visible message once and in order exactly if the pages
fit. -/
theorem forward_paging_complete_iff {ctx : PullContext} {topic canonical : String}
    (h : Authorised ctx topic canonical) (s : Store) {lastSeq : ℕ} (hlast : 0 < lastSeq)
    (hr : InRange s ctx.userID canonical lastSeq) (limit : Int) :
    (∃ fuel messages, pullAll ctx s topic limit fuel lastSeq = some messages ∧
      ReturnsAll s ctx.userID canonical lastSeq messages) ↔
      PagesFit s ctx.userID canonical lastSeq limit := by
  by_cases hlimit : 0 < limit ∧ limit ≤ 100
  · have hpos : 0 < limit.toNat := by omega
    rw [PagesFit, if_pos hlimit,
      ← pages_complete_iff hpos (visibleSeqs_strict s ctx.userID canonical)]
    apply exists_congr
    intro fuel
    rw [← pullAll_seqs h s hlimit fuel hlast hr, Option.map_eq_some_iff]
    apply exists_congr
    intro messages
    apply and_congr_right
    intro hrun
    exact returnsAll_iff (pullAll_visible h s hlast hr hrun)
  · have hfirst := pullAll_default h s hlimit 0 hlast hr.start
    rw [← page_default_complete_iff s ctx.userID canonical lastSeq hlimit,
      ← returnsAll_iff (pullAll_visible h s hlast hr hfirst)]
    constructor
    · rintro ⟨fuel, messages, hrun, hreturns⟩
      cases fuel with
      | zero => cases hrun
      | succ fuel =>
        rw [pullAll_default h s hlimit fuel hlast hr.start] at hrun
        cases hrun
        exact hreturns
    · intro hreturns
      exact ⟨1, _, hfirst, hreturns⟩

/-! ## One message a page -/

def receivedMessage (seq : ℕ) : InboxMessage where
  userID := 2
  msgID := 100 + seq
  topic := "p2p_1_2"
  senderID := 1
  msgType := 0
  content := []
  timestamp := 0
  topicSeq := seq
  clientMsgID := ""
  createdAt := 0

def received (seqs : List ℕ) : Store where
  inboxes := seqs.foldl (fun c seq => c.insert (receivedMessage seq)) .empty

theorem reader_authorised : Authorised { userID := 2 } "p2p_2_1" "p2p_1_2" where
  authed := rfl
  access := ⟨_, rfl, rfl⟩
  topic := by decide
  faultless := rfl

theorem spaced_messages_returned :
    ∃ fuel messages, pullAll { userID := 2 } (received [2, 4]) "p2p_2_1" 1 fuel 1 = some messages ∧
      ReturnsAll (received [2, 4]) 2 "p2p_1_2" 1 messages := by
  have hr : InRange (received [2, 4]) 2 "p2p_1_2" 1 := ⟨by decide, by decide⟩
  apply (forward_paging_complete_iff reader_authorised (received [2, 4]) (by decide) hr 1).mpr
  have hseqs : SeqPages.after 1 (visibleSeqs (received [2, 4]) 2 "p2p_1_2") = [2, 4] := by decide
  rw [PagesFit, if_pos (by decide)]
  rw [hseqs]
  refine ⟨fun i _ _ _ => Nat.mod_one _, ?_⟩
  intro i x y hx hy _
  match i with
  | 0 =>
    cases hx
    cases hy
    decide
  | i + 1 => cases hy

/-- The second of two messages with adjacent seqs is never returned. -/
theorem adjacent_message_skipped :
    ¬ ∃ fuel messages, pullAll { userID := 2 } (received [2, 3]) "p2p_2_1" 1 fuel 1 = some messages ∧
      ReturnsAll (received [2, 3]) 2 "p2p_1_2" 1 messages := by
  have hfirst : handlePull { userID := 2 } (received [2, 3])
      (some { topic := "p2p_2_1", lastSeq := 1, limit := 1 }) =
        .ok ⟨[(receivedMessage 2).toPull], true, 3⟩ := by decide
  have hsecond : handlePull { userID := 2 } (received [2, 3])
      (some { topic := "p2p_2_1", lastSeq := 3, limit := 1 }) = .ok ⟨[], false, 0⟩ := by decide
  rintro ⟨fuel, messages, hrun, hall⟩
  match fuel with
  | 0 => cases hrun
  | 1 =>
    cases hrun
  | fuel + 2 =>
    cases hrun
    have hskipped := hall.complete (receivedMessage 3).toPull (by decide) (by decide)
    revert hskipped
    decide

end NonokaIM
