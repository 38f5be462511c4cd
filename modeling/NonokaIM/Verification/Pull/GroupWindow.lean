import NonokaIM.Verification.Pull.BackwardPaging
import NonokaIM.Verification.Pull.Endpoints
import NonokaIM.Verification.Pull.OfflineWindow

/-! Forward pages of a group, in which the second copy of a mentioned message takes the place of
another one. -/

namespace NonokaIM

open DocumentStore SeqPages Window PullMessage List

def mentionedSeqs (s : Store) (userID : Int) (topic : String) : Set ℕ :=
  {seq | ∃ r ∈ s.mentionInboxes.rows, (r.userID = userID ∧ r.topic = topic) ∧ r.topicSeq = seq}

/-- The messages are in ascending order, and their seqs are the smallest ones above the last seq
that the group or the mentions of the user have. -/
def GroupPageExact (s : Store) (userID : Int) (topic : String) (lastSeq : ℕ) (limit : Int)
    (messages : List PullMessage) : Prop :=
  FirstAbove limit.toNat lastSeq (groupSeqs s topic ∪ mentionedSeqs s userID topic)
    (messages.map topicSeq)

/-- Of the seqs of the page, only the one at the end of a full page may be that of a mention. -/
def MentionsLast (s : Store) (userID : Int) (topic : String) (lastSeq : ℕ) (limit : Int) : Prop :=
  ∀ (i : ℕ) seq, i + 1 < limit.toNat →
    (SeqPages.after lastSeq (visibleSeqs s userID topic))[i]? = some seq →
    storedTwice s userID topic seq = false

section

variable (s : Store) (userID : Int) {topic : String} (hg : parseTopicType topic = .group)
  (lastSeq : ℕ) {limit : Int} (hlimit : 0 < limit ∧ limit ≤ 100)
include hg

theorem groupSeqs_union_mentionedSeqs :
    groupSeqs s topic ∪ mentionedSeqs s userID topic =
      {seq | seq ∈ visibleSeqs s userID topic} := by
  ext seq
  rw [Set.mem_ofPred_eq, mem_visibleSeqs, mainSeqs, mentionSeqs, mainMessages, mentionMessages,
    if_pos hg, if_pos hg]
  simp [groupSeqs, mentionedSeqs, and_assoc]

include hlimit

theorem page_exact_iff :
    GroupPageExact s userID topic lastSeq limit (page s userID topic lastSeq limit) ↔
      MentionsLast s userID topic lastSeq limit := by
  have hstrict := visibleSeqs_strict s userID topic
  rw [GroupPageExact, groupSeqs_union_mentionedSeqs s userID hg, firstAbove_iff hstrict,
    page_seqs s userID topic lastSeq hlimit, after_doubled]
  exact take_doubled_iff ((after_pairwise hstrict lastSeq).imp Nat.ne_of_lt) limit.toNat

omit hg in
theorem fallbackPage_seqs (sorter : SliceSort) :
    (fallbackPage sorter s userID topic lastSeq limit).map topicSeq =
      (page s userID topic lastSeq limit).map topicSeq := by
  by_cases hg : parseTopicType topic = .group
  · have hsorted : (sorter.sort (found s userID topic lastSeq limit)).map topicSeq =
        sort ((found s userID topic lastSeq limit).map topicSeq) := by
      symm
      apply sort_eq_of_perm
      · exact (sorter.perm _).symm.map _
      · exact pairwise_map.mpr (sorter.ascending _)
    rw [fallbackPage, if_pos hg, page_eq_take s userID topic lastSeq limit (.inl hlimit),
      map_take, map_take, hsorted, map_seq_ascending]
  · rw [fallbackPage, if_neg hg, page_of_not_group hg]

end

/-- A forward pull of a group is exact, at both endpoints, just when only the end of a full page is
a message that mentions the user. -/
theorem group_page_exact_iff {ctx : PullContext} {topic canonical : String}
    (h : Authorised ctx topic canonical) (hg : parseTopicType canonical = .group)
    (hu : ctx.userID ≠ 0) (s : Store) {lastSeq : ℕ} (hlast : 1 ≤ lastSeq)
    (hseq : lastSeq < 2 ^ 63) {limit : Int} (hlimit : 1 ≤ limit ∧ limit ≤ 100)
    (sorter : SliceSort) :
    ((∃ reply, handlePull ctx s (some { topic, lastSeq, limit }) = .ok reply ∧
        GroupPageExact s ctx.userID canonical lastSeq limit reply.messages) ↔
      MentionsLast s ctx.userID canonical lastSeq limit) ∧
    ((∃ reply, MessageService.pullMessages sorter ctx s { topic, lastSeq, limit } = .ok reply ∧
        GroupPageExact s ctx.userID canonical lastSeq limit reply.messages) ↔
      MentionsLast s ctx.userID canonical lastSeq limit) := by
  have ht := parseTopicType_normalizeTopic h.topic
  have hforward : ¬({ topic, lastSeq, limit } : PullRequest).Backward := by
    unfold PullRequest.Backward
    dsimp only
    omega
  have hreq : Authorised ctx ({ topic, lastSeq, limit } : PullRequest).topic canonical := h
  rw [← page_exact_iff s ctx.userID hg lastSeq hlimit]
  constructor
  · rw [handlePull_forward h s hlast hseq]
    simp
  · rw [pullMessages_authorised hreq s hu, if_neg hforward,
      fallback_forwardPage_eq h.faultless ht sorter s hseq]
    simp [GroupPageExact, fallbackPage_seqs s ctx.userID lastSeq hlimit]

theorem group_reader_authorised : Authorised { userID := 1 } "grp_1" "grp_1" where
  authed := rfl
  access := ⟨_, rfl, rfl⟩
  topic := by decide
  faultless := rfl

/-- The mention is the last message of the page, and its second copy is cut off. -/
theorem mention_at_the_end_exact :
    MentionsLast mentioningGroup 1 "grp_1" 1 2 ∧
      ∃ reply, handlePull { userID := 1 } mentioningGroup
          (some { topic := "grp_1", lastSeq := 1, limit := 2 }) = .ok reply ∧
        GroupPageExact mentioningGroup 1 "grp_1" 1 2 reply.messages := by
  have hseqs : SeqPages.after 1 (visibleSeqs mentioningGroup 1 "grp_1") = [3, 5] := by decide
  have hlast : MentionsLast mentioningGroup 1 "grp_1" 1 2 := by
    intro i seq hi hseq
    obtain rfl : i = 0 := by omega
    rw [hseqs] at hseq
    cases hseq
    decide
  obtain ⟨sorter, _⟩ := SliceSort.exists_sort (Perm.refl []) Pairwise.nil
  exact ⟨hlast, (group_page_exact_iff group_reader_authorised (by decide) (by decide)
    mentioningGroup (by decide) (by decide) (by decide) sorter).1.mpr hlast⟩

/-- One message is newer, and the page holds it twice. -/
theorem mention_returned_twice :
    handlePull { userID := 1 } mentioningGroup
        (some { topic := "grp_1", lastSeq := 3, limit := 2 }) =
      .ok ⟨[⟨8, "grp_1", 2, 0, [105], 0, 5, "", false⟩, ⟨8, "grp_1", 2, 0, [105], 0, 5, "", false⟩],
        true, 6⟩ ∧
      ¬∃ reply, handlePull { userID := 1 } mentioningGroup
          (some { topic := "grp_1", lastSeq := 3, limit := 2 }) = .ok reply ∧
        GroupPageExact mentioningGroup 1 "grp_1" 3 2 reply.messages := by
  have hpull : handlePull { userID := 1 } mentioningGroup
        (some { topic := "grp_1", lastSeq := 3, limit := 2 }) =
      .ok ⟨[⟨8, "grp_1", 2, 0, [105], 0, 5, "", false⟩, ⟨8, "grp_1", 2, 0, [105], 0, 5, "", false⟩],
        true, 6⟩ := by decide
  refine ⟨hpull, ?_⟩
  rintro ⟨reply, hreply, hexact⟩
  rw [hpull] at hreply
  cases hreply
  exact absurd hexact.ascending (by decide)

end NonokaIM
