import NonokaIM.Verification.Pull.History
import Mathlib.Data.List.Perm.Basic

/-! Paging backward: a client repeats the query for older messages with the smallest seq of the
page before, while there are more. -/

namespace NonokaIM

open DocumentStore LatestFirst List InboxMessage

/-! ## All pages -/

/-- One reply of the storage, with the seq that was asked for. -/
structure HistoryPage where
  endSeq : ℕ
  messages : List InboxMessage
  hasMore : Bool

def HistoryPage.seqs (page : HistoryPage) : List ℕ := page.messages.map topicSeq

/-- Query again below the smallest seq of the page while there are more messages. -/
def pullHistory (s : Store) (userID : Int) (topic : String) (limit : Int) :
    ℕ → ℕ → Option (List HistoryPage)
  | 0, _ => none
  | fuel + 1, endSeq =>
    match getHistoryMessages s userID topic endSeq limit {} with
    | .error _ => none
    | .ok (messages, hasMore) =>
      if hasMore then
        (pullHistory s userID topic limit fuel ((messages.head?.map topicSeq).getD 0)).map
          (⟨endSeq, messages, hasMore⟩ :: ·)
      else some [⟨endSeq, messages, hasMore⟩]

/-- The seqs are at least one, and signed as all stored numbers are. -/
structure Numbered (s : Store) : Prop where
  inboxes : ∀ r ∈ s.inboxes.rows, 1 ≤ r.topicSeq ∧ r.topicSeq < 2 ^ 63
  messages : ∀ r ∈ s.messages.rows, 1 ≤ r.topicSeq ∧ r.topicSeq < 2 ^ 63
  mentions : ∀ r ∈ s.mentionInboxes.rows, 1 ≤ r.topicSeq ∧ r.topicSeq < 2 ^ 63

/-- The pages hold every visible seq once; each is ascending, and says that there are more exactly
if a visible seq is before its end and below its messages. -/
structure CompleteHistory (s : Store) (userID : Int) (topic : String)
    (pages : List HistoryPage) : Prop where
  once : (pages.flatMap HistoryPage.seqs).Nodup
  complete : ∀ seq, seq ∈ pages.flatMap HistoryPage.seqs ↔
    ∃ m ∈ visibleMessages s userID topic, m.topicSeq = seq
  ascending : ∀ page ∈ pages, page.seqs.Pairwise (· < ·)
  honest : ∀ page ∈ pages, page.hasMore = true ↔
    ∃ m ∈ visibleMessages s userID topic,
      (page.endSeq = 0 ∨ m.topicSeq < page.endSeq) ∧ ∀ seq ∈ page.seqs, m.topicSeq < seq

section

variable (s : Store) (userID : Int) {topic : String}

theorem mem_visibleDown_iff {seq : ℕ} : seq ∈ visibleDown s userID topic ↔
    ∃ m ∈ visibleMessages s userID topic, m.topicSeq = seq := by
  rw [visibleDown, mem_sortDown, mem_visibleSeqs_iff]

theorem numbered_of_visible (hs : Numbered s) {seq : ℕ} (h : seq ∈ visibleDown s userID topic) :
    0 < seq ∧ seq < 2 ^ 63 := by
  obtain ⟨m, hm, rfl⟩ := (mem_visibleDown_iff s userID).mp h
  rcases mem_append.mp hm with hm | hm
  · unfold mainMessages at hm
    split at hm
    · obtain ⟨r, hr, rfl⟩ := mem_map.mp hm
      exact hs.messages r (mem_filter.mp hr).1
    · obtain ⟨r, hr, rfl⟩ := mem_map.mp hm
      exact hs.inboxes r (mem_filter.mp hr).1
  · unfold mentionMessages at hm
    split at hm
    · obtain ⟨r, hr, rfl⟩ := mem_map.mp hm
      exact hs.mentions r (mem_filter.mp hr).1
    · cases hm

variable (ht : parseTopicType topic ≠ .unknown) (limit : Int)
include ht

theorem pullHistory_seqs (hs : Numbered s) (fuel : ℕ) {endSeq : ℕ} (hseq : endSeq < 2 ^ 63) :
    (pullHistory s userID topic limit fuel endSeq).map (map fun page => page.seqs.reverse) =
      pages (clampLimit limit) (visibleDown s userID topic) fuel (cursor endSeq) := by
  induction fuel generalizing endSeq with
  | zero => rfl
  | succ fuel ih =>
    obtain ⟨messages, more, hpage, hseqs, hmore⟩ := history_page s userID ht hseq limit
    have hrev : (messages.map topicSeq).reverse =
        (below (cursor endSeq) (visibleDown s userID topic)).take (clampLimit limit) := by
      rw [hseqs, reverse_reverse]
    -- the smallest seq of the page is at least one, so it is a cursor
    have hnext : (messages.head?.map topicSeq).getD 0 < 2 ^ 63 ∧
        cursor ((messages.head?.map topicSeq).getD 0) =
          ((below (cursor endSeq) (visibleDown s userID topic)).take
            (clampLimit limit)).getLast? := by
      rw [← hrev, getLast?_reverse, head?_map]
      cases hhead : messages.head? with
      | none => exact ⟨by decide, rfl⟩
      | some m =>
        have hmem : m.topicSeq ∈ (below (cursor endSeq) (visibleDown s userID topic)).take
            (clampLimit limit) := by
          rw [← hrev, mem_reverse]
          exact mem_map_of_mem (mem_of_mem_head? hhead)
        obtain ⟨hpos, hlt⟩ :=
          numbered_of_visible s userID hs (mem_below.mp (mem_of_mem_take hmem)).1
        exact ⟨hlt, if_neg (Nat.ne_of_gt hpos)⟩
    simp only [pullHistory, hpage, pages]
    cases more with
    | false =>
      rw [if_neg (fun h => Bool.false_ne_true (hmore.mpr h)), ← hrev]
      rfl
    | true =>
      rw [if_pos (hmore.mp rfl), ← hnext.2, ← ih hnext.1, ← hrev]
      simp only [reduceIte, Option.map_map]
      rfl

omit ht in
theorem pullHistory_reply {fuel endSeq : ℕ} {ps : List HistoryPage}
    (h : pullHistory s userID topic limit fuel endSeq = some ps) :
    ∀ page ∈ ps, getHistoryMessages s userID topic page.endSeq limit {} =
      .ok (page.messages, page.hasMore) := by
  induction fuel generalizing endSeq ps with
  | zero => cases h
  | succ fuel ih =>
    intro page hmem
    unfold pullHistory at h
    split at h
    · cases h
    rename_i hpage
    split at h
    · obtain ⟨rest, hrest, rfl⟩ := Option.map_eq_some_iff.mp h
      rcases mem_cons.mp hmem with rfl | hmem
      · exact hpage
      · exact ih hrest page hmem
    · cases h
      rw [mem_singleton.mp hmem]
      exact hpage

theorem reply_honest {page : HistoryPage}
    (h : getHistoryMessages s userID topic page.endSeq limit {} =
      .ok (page.messages, page.hasMore)) :
    page.seqs.Pairwise (· < ·) ∧ (page.hasMore = true ↔
      ∃ m ∈ visibleMessages s userID topic,
        (page.endSeq = 0 ∨ m.topicSeq < page.endSeq) ∧ ∀ seq ∈ page.seqs, m.topicSeq < seq) := by
  obtain ⟨messages, more, hpage, hseqs, hmore⟩ :=
    history_page s userID ht (endSeq_lt_of_getHistoryMessages h) limit
  rw [h] at hpage
  cases hpage
  have hstrict := below_pairwise (visibleDown_strict s userID topic) (cursor page.endSeq)
  refine ⟨?_, ?_⟩
  · rw [HistoryPage.seqs, hseqs, pairwise_reverse]
    exact hstrict.sublist (take_sublist _ _)
  · rw [hmore, length_gt_iff hstrict]
    have hbelow : ∀ seq, seq ∈ below (cursor page.endSeq) (visibleDown s userID topic) ↔
        (∃ m ∈ visibleMessages s userID topic, m.topicSeq = seq) ∧
          (page.endSeq = 0 ∨ seq < page.endSeq) := by
      intro seq
      rw [mem_below, mem_visibleDown_iff, cursor]
      by_cases hend : page.endSeq = 0 <;> simp [hend]
    have htake : ∀ seq, seq ∈ page.seqs ↔ seq ∈ (below (cursor page.endSeq)
        (visibleDown s userID topic)).take (clampLimit limit) := by
      intro seq
      rw [HistoryPage.seqs, hseqs, mem_reverse]
    constructor
    · rintro ⟨seq, hseq, hlow⟩
      obtain ⟨⟨m, hm, rfl⟩, hend⟩ := (hbelow _).mp hseq
      exact ⟨m, hm, hend, fun seq hseq => hlow seq ((htake seq).mp hseq)⟩
    · rintro ⟨m, hm, hend, hlow⟩
      refine ⟨m.topicSeq, (hbelow _).mpr ⟨⟨m, hm, rfl⟩, hend⟩, ?_⟩
      intro seq hseq
      exact hlow seq ((htake seq).mpr hseq)

end

/-! ## Completeness -/

theorem completeHistory_of_flatten {s : Store} {userID : Int} {topic : String} {limit : Int}
    (ht : parseTopicType topic ≠ .unknown) {ps : List HistoryPage}
    (hflat : (ps.map fun page => page.seqs.reverse).flatten = visibleDown s userID topic)
    (hreply : ∀ page ∈ ps, getHistoryMessages s userID topic page.endSeq limit {} =
      .ok (page.messages, page.hasMore)) :
    CompleteHistory s userID topic ps := by
  have hperm : (ps.flatMap HistoryPage.seqs).Perm (visibleDown s userID topic) := by
    rw [← hflat, ← flatMap_def]
    exact Perm.flatMap_left _ fun page _ => (reverse_perm _).symm
  constructor
  · exact hperm.nodup_iff.mpr ((visibleDown_strict s userID topic).imp ne_of_gt)
  · intro seq
    rw [hperm.mem_iff, mem_visibleDown_iff]
  · intro page hpage
    exact (reply_honest s userID ht limit (hreply page hpage)).1
  · intro page hpage
    exact (reply_honest s userID ht limit (hreply page hpage)).2

/-- Paging backward from the latest message ends, whatever the limit, with every message that the
user can see. Strings that are no topic are refused. -/
theorem backward_paging_complete (s : Store) (hs : Numbered s) (userID : Int) (topic : String)
    (limit : Int) :
    (∀ fuel, (visibleSeqs s userID topic).length < fuel →
      ∃ ps, pullHistory s userID topic limit fuel 0 = some ps ∧
        CompleteHistory s userID topic ps) ∨
    (parseTopicType topic = .unknown ∧ ∀ endSeq, getHistoryMessages s userID topic endSeq limit {} =
        .error ("unknown topic type: " ++ topic)) := by
  by_cases ht : parseTopicType topic = .unknown
  · refine .inr ⟨ht, ?_⟩
    intro endSeq
    simp [getHistoryMessages, ht]
  · refine .inl ?_
    intro fuel hfuel
    have hpos : 0 < clampLimit limit := by
      unfold clampLimit
      split <;> omega
    have hall : below (cursor 0) (visibleDown s userID topic) = visibleDown s userID topic :=
      filter_eq_self.mpr fun _ _ => rfl
    have hlen : (below (cursor 0) (visibleDown s userID topic)).length < fuel := by
      rw [hall, visibleDown, (sortDown_perm _).length_eq]
      exact hfuel
    obtain ⟨seqs, hpages, hflat⟩ :=
      pages_flatten hpos (visibleDown_strict s userID topic) hlen
    rw [← pullHistory_seqs s userID ht limit hs fuel (by decide)] at hpages
    obtain ⟨ps, hrun, rfl⟩ := Option.map_eq_some_iff.mp hpages
    rw [hall] at hflat
    exact ⟨ps, hrun, completeHistory_of_flatten ht hflat (pullHistory_reply s userID limit hrun)⟩

def mentioningGroup : Store where
  messages := ⟨[⟨7, "grp_1", 2, 0, [104], 0, 3, "", false, 0⟩,
    ⟨8, "grp_1", 2, 0, [105], 0, 5, "", false, 0⟩], by decide⟩
  mentionInboxes :=
    ⟨[⟨1, 8, "grp_1", 2, 0, [105], 0, 5, "", false, false, none, none, 0⟩], by decide⟩

theorem mentioning_group_paged :
    Numbered mentioningGroup ∧
      ∃ ps, pullHistory mentioningGroup 1 "grp_1" 1 3 0 = some ps ∧
        CompleteHistory mentioningGroup 1 "grp_1" ps := by
  have hs : Numbered mentioningGroup := ⟨by decide, by decide, by decide⟩
  refine ⟨hs, ?_⟩
  rcases backward_paging_complete mentioningGroup hs 1 "grp_1" 1 with h | ⟨h, _⟩
  · exact h 3 (by decide)
  · exact absurd h (by decide)

end NonokaIM
