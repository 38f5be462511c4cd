import NonokaIM.Model.Pull
import NonokaIM.Library.KeySort
import NonokaIM.Library.SeqPages
import Mathlib.Data.List.Dedup

/-! One forward page: the inbox or the messages of a group, with the mentions of the user. -/

namespace NonokaIM

open DocumentStore SeqPages PullMessage KeySort

/-! ## The messages a user can see -/

section

variable (s : Store) (userID : Int) (topic : String)

def mainMessages : List PullMessage :=
  if parseTopicType topic = .group then
    (s.messages.rows.filter fun r => r.topic = topic).map StoredMessage.toPull
  else (s.inboxes.rows.filter fun r => r.userID = userID ∧ r.topic = topic).map InboxMessage.toPull

def mentionMessages : List PullMessage :=
  if parseTopicType topic = .group then
    (s.mentionInboxes.rows.filter fun r => r.userID = userID ∧ r.topic = topic).map
      MentionMessage.toPull
  else []

def visibleMessages : List PullMessage :=
  mainMessages s userID topic ++ mentionMessages s userID topic

def mainSeqs : List ℕ :=
  sort ((mainMessages s userID topic).map topicSeq)

def mentionSeqs : List ℕ :=
  sort ((mentionMessages s userID topic).map topicSeq)

def visibleSeqs : List ℕ :=
  sort (mainSeqs s userID topic ++ mentionSeqs s userID topic).dedup

/-- The message with this seq is stored for the user as a mention as well. -/
def storedTwice (seq : ℕ) : Bool :=
  seq ∈ mainSeqs s userID topic ∧ seq ∈ mentionSeqs s userID topic

theorem groupSeqs_nodup :
    ((s.messages.rows.filter fun r => r.topic = topic).map StoredMessage.topicSeq).Nodup := by
  apply s.messages.nodup_map_filter
  intro a b ha hb hseq
  simp only [decide_eq_true_eq] at ha hb
  refine ⟨.topicSeq a.topic a.topicSeq, List.mem_cons_self, ?_⟩
  rw [ha, ← hb, hseq]
  exact List.mem_cons_self

theorem inboxSeqs_nodup :
    ((s.inboxes.rows.filter fun r => r.userID = userID ∧ r.topic = topic).map
      InboxMessage.topicSeq).Nodup := by
  apply s.inboxes.nodup_map_filter
  intro a b ha hb hseq
  simp only [decide_eq_true_eq] at ha hb
  refine ⟨.topicSeq a.userID a.topic a.topicSeq, List.mem_cons_self, ?_⟩
  rw [ha.1, ha.2, ← hb.1, ← hb.2, hseq]
  exact List.mem_cons_self

theorem mainMessages_nodup : ((mainMessages s userID topic).map topicSeq).Nodup := by
  unfold mainMessages
  split
  · rw [List.map_map]
    exact groupSeqs_nodup s topic
  · rw [List.map_map]
    exact inboxSeqs_nodup s userID topic

theorem mainSeqs_nodup : (mainSeqs s userID topic).Nodup :=
  (sort_perm _).nodup_iff.mpr (mainMessages_nodup s userID topic)

theorem mentionMessages_nodup : ((mentionMessages s userID topic).map topicSeq).Nodup := by
  unfold mentionMessages
  split
  · rw [List.map_map]
    apply s.mentionInboxes.nodup_map_filter
    intro a b ha hb hseq
    simp only [decide_eq_true_eq] at ha hb
    refine ⟨.topicSeq a.userID a.topic a.topicSeq, List.mem_cons_self, ?_⟩
    rw [ha.1, ha.2, ← hb.1, ← hb.2, show a.topicSeq = b.topicSeq from hseq]
    exact List.mem_cons_self
  · exact List.nodup_nil

theorem mentionSeqs_nodup : (mentionSeqs s userID topic).Nodup :=
  (sort_perm _).nodup_iff.mpr (mentionMessages_nodup s userID topic)

theorem visibleSeqs_strict : (visibleSeqs s userID topic).Pairwise (· < ·) :=
  sort_strict (List.nodup_dedup _)

theorem mem_visibleSeqs {seq : ℕ} : seq ∈ visibleSeqs s userID topic ↔
    seq ∈ mainSeqs s userID topic ∨ seq ∈ mentionSeqs s userID topic := by
  simp [visibleSeqs]

theorem mem_visibleSeqs_iff {seq : ℕ} : seq ∈ visibleSeqs s userID topic ↔
    ∃ m ∈ visibleMessages s userID topic, m.topicSeq = seq := by
  simp [mem_visibleSeqs, mainSeqs, mentionSeqs, visibleMessages, or_and_right, exists_or]

theorem sort_mainSeqs_mentionSeqs :
    sort (mainSeqs s userID topic ++ mentionSeqs s userID topic) =
      doubled (storedTwice s userID topic) (visibleSeqs s userID topic) := by
  apply sort_eq_of_perm _ (doubled_pairwise (visibleSeqs_strict s userID topic))
  apply append_perm_doubled (mainSeqs_nodup s userID topic) (mentionSeqs_nodup s userID topic)
    ((visibleSeqs_strict s userID topic).imp Nat.ne_of_lt)
  · intro seq
    exact mem_visibleSeqs s userID topic
  · intro seq
    simp [storedTwice]

end

section

variable {ρ σ : Type} {seq : ρ → ℕ}

theorem map_ascending {seq' : σ → ℕ} {f : ρ → σ} (h : ∀ r, seq' (f r) = seq r) (rows : List ρ) :
    (ascending seq rows).map f = ascending seq' (rows.map f) := by
  apply List.map_insertionSort
  intro a _ b _
  rw [h, h]

theorem map_seq_ascending (rows : List ρ) : (ascending seq rows).map seq = sort (rows.map seq) := by
  apply List.map_insertionSort
  intro a _ b _
  exact Iff.rfl

theorem mem_ascending {rows : List ρ} {r : ρ} : r ∈ ascending seq rows ↔ r ∈ rows :=
  List.mem_insertionSort _

theorem length_ascending (rows : List ρ) : (ascending seq rows).length = rows.length :=
  List.length_insertionSort _ _

theorem ascending_pairwise (rows : List ρ) :
    (ascending seq rows).Pairwise fun a b => seq a ≤ seq b := by
  have htotal : Std.Total fun a b : ρ => seq a ≤ seq b := ⟨fun a b => Nat.le_total _ _⟩
  have htrans : IsTrans ρ fun a b => seq a ≤ seq b := ⟨fun a b c => Nat.le_trans⟩
  exact List.pairwise_insertionSort _ rows

theorem perm_ascending (rows : List ρ) : (ascending seq rows).Perm rows :=
  List.perm_insertionSort _ rows

/-- Rows with equal seqs keep their order. -/
theorem filter_ascending (rows : List ρ) (n : ℕ) :
    (ascending seq rows).filter (seq · = n) = rows.filter (seq · = n) := by
  have hsorted : (rows.filter (seq · = n)).Pairwise fun a b => seq a ≤ seq b := by
    apply List.pairwise_of_forall_mem_list
    intro a ha b hb
    have hna : seq a = n := of_decide_eq_true (List.mem_filter.mp ha).2
    have hnb : seq b = n := of_decide_eq_true (List.mem_filter.mp hb).2
    omega
  have hsub := (List.sublist_insertionSort hsorted List.filter_sublist).filter (seq · = n)
  simp only [List.filter_filter, Bool.and_self] at hsub
  exact (hsub.eq_of_length ((perm_ascending rows).filter _).length_eq.symm).symm

theorem filter_of_nodup {rows : List ρ} (h : (rows.map seq).Nodup) {r : ρ} (hr : r ∈ rows) :
    rows.filter (seq · = seq r) = [r] := by
  induction rows with
  | nil => cases hr
  | cons x rows ih =>
    simp only [List.map_cons, List.nodup_cons] at h
    rcases List.mem_cons.mp hr with rfl | hr
    · have hnone : rows.filter (seq · = seq r) = [] := by
        simpa [List.filter_eq_nil_iff] using h.1
      simp [hnone]
    · have hne : seq x ≠ seq r := by
        intro he
        exact h.1 (he ▸ List.mem_map_of_mem hr)
      simp [hne, ih h.2 hr]

theorem mem_take_ascending_iff {xs ys : List ρ} (hys : (ys.map seq).Nodup) {y : ρ} (hy : y ∈ ys)
    (hx : y ∉ xs) (n : ℕ) :
    y ∈ (ascending seq (xs ++ ys)).take n ↔
      xs.countP (seq · ≤ seq y) + ys.countP (seq · < seq y) < n :=
  mem_take_iff (ascending_pairwise _) (perm_ascending _) (filter_ascending _ _)
    (filter_of_nodup hys hy) hx n

theorem ascending_take_ascending (k : ℕ) (rows : List ρ) :
    ascending seq ((ascending seq rows).take k) = (ascending seq rows).take k := by
  apply List.Pairwise.insertionSort_eq
  exact (ascending_pairwise rows).sublist (List.take_sublist _ _)

end

def newer (lastSeq : ℕ) (limit : Int) (messages : List PullMessage) : List PullMessage :=
  (ascending topicSeq (messages.filter (lastSeq < ·.topicSeq))).take (clampLimit limit)

def mergedPage (s : Store) (userID : Int) (topic : String) (lastSeq : ℕ) (limit : Int) :
    List PullMessage :=
  ascending topicSeq (newer lastSeq limit (mainMessages s userID topic) ++
    newer lastSeq limit (mentionMessages s userID topic))

/-- What a forward pull returns: the limit of the request cuts the merged messages again. -/
def page (s : Store) (userID : Int) (topic : String) (lastSeq : ℕ) (limit : Int) :
    List PullMessage :=
  if 0 < limit then (mergedPage s userID topic lastSeq limit).take limit.toNat
  else mergedPage s userID topic lastSeq limit

variable {lastSeq : ℕ} {messages : List PullMessage}

theorem countP_newer {limit : Int} {p : PullMessage → Prop} [DecidablePred p]
    (hp : ∀ a b : PullMessage, a.topicSeq ≤ b.topicSeq → p b → p a) :
    (newer lastSeq limit messages).countP (fun m => p m) =
      min (clampLimit limit) (messages.countP fun m => lastSeq < m.topicSeq ∧ p m) := by
  have hsorted : Sorted topicSeq
      (ascending topicSeq (messages.filter (lastSeq < ·.topicSeq))) := ascending_pairwise _
  have hclosed : ∀ a b : PullMessage, a.topicSeq ≤ b.topicSeq → decide (p b) = true →
      decide (p a) = true := by
    simpa using hp
  rw [newer, Sorted.countP_take hsorted hclosed, (perm_ascending _).countP_eq, List.countP_filter]
  simp [and_comm]

theorem mem_of_mem_newer {limit : Int} {m : PullMessage} (h : m ∈ newer lastSeq limit messages) :
    m ∈ messages ∧ lastSeq < m.topicSeq := by
  simpa using mem_ascending.mp (List.mem_of_mem_take h)

theorem mem_newer_iff (h : (messages.map topicSeq).Nodup)
    {m : PullMessage} (hm : m ∈ messages) (lastSeq : ℕ) (limit : Int) :
    m ∈ newer lastSeq limit messages ↔ lastSeq < m.topicSeq ∧
      messages.countP (fun x => lastSeq < x.topicSeq ∧ x.topicSeq < m.topicSeq) <
        clampLimit limit := by
  by_cases hlast : lastSeq < m.topicSeq
  · have hmem : m ∈ messages.filter (lastSeq < ·.topicSeq) := by simp [hm, hlast]
    have hnodup : ((messages.filter (lastSeq < ·.topicSeq)).map topicSeq).Nodup :=
      h.sublist (List.filter_sublist.map _)
    have hiff := mem_take_ascending_iff hnodup hmem List.not_mem_nil (clampLimit limit)
    rw [List.nil_append, List.countP_nil, Nat.zero_add, List.countP_filter] at hiff
    rw [newer, hiff, and_iff_right hlast]
    simp [Bool.and_comm]
  · exact iff_of_false (fun hmem => hlast (mem_of_mem_newer hmem).2) fun hand => hlast hand.1

theorem newer_map {ρ : Type} {seq : ρ → ℕ} {f : ρ → PullMessage} {p q : ρ → Bool}
    (h : ∀ r, (f r).topicSeq = seq r) (hq : ∀ r, q r = (p r && lastSeq < seq r))
    (rows : List ρ) (limit : Int) :
    newer lastSeq limit ((rows.filter p).map f) =
      ((ascending seq (rows.filter q)).take (clampLimit limit)).map f := by
  have hfilter : ((rows.filter p).map f).filter (lastSeq < ·.topicSeq) =
      (rows.filter q).map f := by
    rw [List.filter_map, List.filter_filter]
    congr 1
    apply List.filter_congr
    intro r _
    simp [h, hq, Bool.and_comm]
  rw [newer, hfilter, List.map_take, map_ascending h]

variable {limit : Int}

theorem clampLimit_eq (h : 0 < limit ∧ limit ≤ 100) : clampLimit limit = limit.toNat := by
  rw [clampLimit, if_neg (by omega)]

theorem clampLimit_default (h : ¬ (0 < limit ∧ limit ≤ 100)) : clampLimit limit = 50 := by
  rw [clampLimit, if_pos (by omega)]

theorem clampLimit_clampLimit (limit : Int) : clampLimit (clampLimit limit) = clampLimit limit := by
  unfold clampLimit
  split
  · rfl
  · rw [if_neg (by omega)]
    omega

theorem mergedPage_length (s : Store) (userID : Int) (topic : String) (lastSeq : ℕ) (limit : Int) :
    (mergedPage s userID topic lastSeq limit).length ≤ 2 * clampLimit limit := by
  rw [mergedPage, length_ascending, List.length_append, newer, newer, List.length_take,
    List.length_take]
  omega

variable {topic : String} {s : Store}

theorem page_of_not_group {userID : Int} (h : parseTopicType topic ≠ .group) :
    page s userID topic lastSeq limit = newer lastSeq limit (mainMessages s userID topic) := by
  have hnone : newer lastSeq limit (mentionMessages s userID topic) = [] := by
    rw [mentionMessages, if_neg h]
    exact List.take_nil
  have hmerged : mergedPage s userID topic lastSeq limit =
      newer lastSeq limit (mainMessages s userID topic) := by
    rw [mergedPage, hnone, List.append_nil]
    exact ascending_take_ascending _ _
  rw [page, hmerged]
  split
  · have hclamp : clampLimit limit ≤ limit.toNat := by
      unfold clampLimit
      split <;> omega
    exact List.take_of_length_le ((List.length_take_le _ _).trans hclamp)
  · rfl

theorem getGroupMessages_newer (h : parseTopicType topic = .group)
    (userID : Int) (hseq : lastSeq < 2 ^ 63) (limit : Int) :
    ∃ rows, getGroupMessages s topic lastSeq limit none = .ok rows ∧
      rows.map StoredMessage.toPull = newer lastSeq limit (mainMessages s userID topic) := by
  rw [getGroupMessages, queryFault_of_lt hseq]
  refine ⟨_, rfl, ?_⟩
  rw [mainMessages, if_pos h]
  apply (newer_map StoredMessage.topicSeq_toPull _ _ limit).symm
  intro r
  exact Bool.decide_and _ _

theorem getMentionMessages_newer (h : parseTopicType topic = .group)
    (userID : Int) (hseq : lastSeq < 2 ^ 63) (limit : Int) :
    ∃ rows, getMentionMessages s userID topic lastSeq limit none = .ok rows ∧
      rows.map MentionMessage.toPull = newer lastSeq limit (mentionMessages s userID topic) := by
  rw [getMentionMessages, queryFault_of_lt hseq]
  refine ⟨_, rfl, ?_⟩
  rw [mentionMessages, if_pos h]
  apply (newer_map MentionMessage.topicSeq_toPull _ _ limit).symm
  intro r
  simp [Bool.and_assoc]

theorem getOfflineMessages_newer (h : parseTopicType topic ≠ .group)
    (userID : Int) (hseq : lastSeq < 2 ^ 63) (limit : Int) :
    ∃ rows, getOfflineMessages s userID topic lastSeq limit {} = .ok rows ∧
      rows.map InboxMessage.toPull = newer lastSeq limit (mainMessages s userID topic) := by
  rw [getOfflineMessages, queryFault_of_lt hseq]
  refine ⟨_, rfl, ?_⟩
  rw [if_neg h, ascending_take_ascending, List.take_take, Nat.min_self, mainMessages, if_neg h]
  apply (newer_map InboxMessage.topicSeq_toPull _ _ limit).symm
  intro r
  simp [Bool.and_assoc]

theorem forwardPage_eq {ctx : PullContext} (hfault : ctx.fault = {})
    (ht : parseTopicType topic ≠ .unknown) (s : Store) (hseq : lastSeq < 2 ^ 63) (limit : Int) :
    forwardPage ctx s topic lastSeq limit =
      .ok (page s ctx.userID topic lastSeq limit,
        limit ≤ (page s ctx.userID topic lastSeq limit).length ∧ 0 < limit) := by
  unfold forwardPage
  rw [hfault]
  by_cases hg : parseTopicType topic = .group
  · obtain ⟨groupMsgs, hgroup, hmain⟩ := getGroupMessages_newer hg ctx.userID hseq limit (s := s)
    obtain ⟨mentionMsgs, hmention, hsecond⟩ :=
      getMentionMessages_newer hg ctx.userID hseq limit (s := s)
    have hmerged : mergeAndSortMessages groupMsgs mentionMsgs =
        mergedPage s ctx.userID topic lastSeq limit := by
      rw [mergeAndSortMessages, hmain, hsecond, mergedPage]
    simp only [hg, hgroup, hmention, hmerged]
    have hcut : (if limit < (mergedPage s ctx.userID topic lastSeq limit).length ∧ 0 < limit then
        (mergedPage s ctx.userID topic lastSeq limit).take limit.toNat
        else mergedPage s ctx.userID topic lastSeq limit) =
        page s ctx.userID topic lastSeq limit := by
      unfold page
      by_cases hpos : 0 < limit
      · by_cases hlen : limit < (mergedPage s ctx.userID topic lastSeq limit).length
        · rw [if_pos ⟨hlen, hpos⟩, if_pos hpos]
        · rw [if_neg (fun h => hlen h.1), if_pos hpos, List.take_of_length_le (by omega)]
      · rw [if_neg (fun h => hpos h.2), if_neg hpos]
    rw [hcut]
  · obtain ⟨msgs, hmsgs, hmain⟩ := getOfflineMessages_newer hg ctx.userID hseq limit (s := s)
    rw [page_of_not_group hg, ← hmain, List.length_map]
    cases htype : parseTopicType topic with
    | unknown => exact absurd htype ht
    | group => exact absurd htype hg
    | p2p | system => simp only [hmsgs]

theorem lastSeq_lt_of_forwardPage {ctx : PullContext} {limit : Int} {r : List PullMessage × Bool}
    (h : forwardPage ctx s topic lastSeq limit = .ok r) : lastSeq < 2 ^ 63 := by
  by_contra hseq
  have hfault := queryFault_of_le (Nat.not_lt.mp hseq)
  unfold forwardPage getOfflineMessages getGroupMessages at h
  simp only [hfault] at h
  split at h <;> cases h

/-! ## The seqs of a page -/

theorem newer_seqs (lastSeq : ℕ) (limit : Int) (messages : List PullMessage) :
    (newer lastSeq limit messages).map topicSeq =
      (after lastSeq (sort (messages.map topicSeq))).take (clampLimit limit) := by
  rw [newer, List.map_take, map_seq_ascending, after_sort, after, List.filter_map]
  rfl

section

variable (s : Store) (userID : Int) (topic : String) (lastSeq : ℕ) {limit : Int}

theorem mergedPage_seqs (limit : Int) :
    (mergedPage s userID topic lastSeq limit).map topicSeq =
      sort ((after lastSeq (mainSeqs s userID topic)).take (clampLimit limit) ++
        (after lastSeq (mentionSeqs s userID topic)).take (clampLimit limit)) := by
  rw [mergedPage, map_seq_ascending, List.map_append, newer_seqs, newer_seqs]
  rfl

theorem page_seqs (h : 0 < limit ∧ limit ≤ 100) :
    (page s userID topic lastSeq limit).map topicSeq =
      (after lastSeq (doubled (storedTwice s userID topic) (visibleSeqs s userID topic))).take
        limit.toNat := by
  have hmain : (after lastSeq (mainSeqs s userID topic)).Pairwise (· ≤ ·) :=
    after_pairwise (sort_pairwise _) _
  have hmention : (after lastSeq (mentionSeqs s userID topic)).Pairwise (· ≤ ·) :=
    after_pairwise (sort_pairwise _) _
  rw [page, if_pos h.1, List.map_take, mergedPage_seqs, clampLimit_eq h,
    take_sort_append hmain hmention, ← sort_mainSeqs_mentionSeqs, after_sort, after, after, after,
    List.filter_append]

theorem page_default (h : ¬ (0 < limit ∧ limit ≤ 100)) :
    page s userID topic lastSeq limit = mergedPage s userID topic lastSeq limit := by
  have hlen := mergedPage_length s userID topic lastSeq limit
  rw [clampLimit_default h] at hlen
  unfold page
  split
  · exact List.take_of_length_le (by omega)
  · rfl

theorem page_seqs_default (h : ¬ (0 < limit ∧ limit ≤ 100)) :
    (page s userID topic lastSeq limit).map topicSeq =
      sort ((after lastSeq (mainSeqs s userID topic)).take 50 ++
        (after lastSeq (mentionSeqs s userID topic)).take 50) := by
  rw [page_default s userID topic lastSeq h, mergedPage_seqs, clampLimit_default h]

theorem mem_page {m : PullMessage} (h : m ∈ page s userID topic lastSeq limit) :
    m ∈ visibleMessages s userID topic ∧ lastSeq < m.topicSeq := by
  have hmerged : m ∈ mergedPage s userID topic lastSeq limit := by
    unfold page at h
    split at h
    · exact List.mem_of_mem_take h
    · exact h
  rcases List.mem_append.mp (mem_ascending.mp hmerged) with hm | hm
  · exact (mem_of_mem_newer hm).imp_left (List.mem_append_left _)
  · exact (mem_of_mem_newer hm).imp_left (List.mem_append_right _)

end

end NonokaIM
