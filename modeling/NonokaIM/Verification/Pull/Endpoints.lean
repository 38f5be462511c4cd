import NonokaIM.Model.MessageService
import NonokaIM.Verification.Pull.ForwardPaging
import NonokaIM.Verification.Pull.History

/-! The two endpoints for pulls give the same backward pages. Going forward, they judge `has_more`
by different limits. -/

namespace NonokaIM

open DocumentStore List PullMessage PullRequest KeySort

/-- The endpoints answer a request with the same messages, `has_more` and `next_seq`. -/
def SameReply (sorter : SliceSort) (ctx : PullContext) (s : Store) (req : PullRequest) : Prop :=
  ∃ reply, handlePull ctx s (some req) = .ok reply ∧
    MessageService.pullMessages sorter ctx s req = .ok reply

theorem clampLimit_pos (limit : Int) : 0 < clampLimit limit := by
  unfold clampLimit
  split <;> omega

theorem newer_clampLimit (lastSeq : ℕ) (limit : Int) (messages : List PullMessage) :
    newer lastSeq (clampLimit limit) messages = newer lastSeq limit messages := by
  rw [newer, newer, clampLimit_clampLimit]

theorem getHistoryMessages_clampLimit (s : Store) (userID : Int) (topic : String) (endSeq : ℕ)
    (limit : Int) (fault : PullFault) :
    getHistoryMessages s userID topic endSeq (clampLimit limit) fault =
      getHistoryMessages s userID topic endSeq limit fault := by
  unfold getHistoryMessages
  rw [clampLimit_clampLimit]

/-! ## Forward pages of the fallback -/

def found (s : Store) (userID : Int) (topic : String) (lastSeq : ℕ) (limit : Int) :
    List PullMessage :=
  newer lastSeq limit (mainMessages s userID topic) ++
    newer lastSeq limit (mentionMessages s userID topic)

/-- The page of the fallback; an inbox is not sorted again. -/
def fallbackPage (sorter : SliceSort) (s : Store) (userID : Int) (topic : String) (lastSeq : ℕ)
    (limit : Int) : List PullMessage :=
  if parseTopicType topic = .group then
    (sorter.sort (found s userID topic lastSeq limit)).take (clampLimit limit)
  else newer lastSeq limit (mainMessages s userID topic)

theorem fallback_forwardPage_eq {ctx : PullContext} {topic : String} (hfault : ctx.fault = {})
    (ht : parseTopicType topic ≠ .unknown) (sorter : SliceSort) (s : Store) {lastSeq : ℕ}
    (hseq : lastSeq < 2 ^ 63) (limit : Int) :
    MessageService.forwardPage sorter ctx s topic lastSeq (clampLimit limit) =
      some (fallbackPage sorter s ctx.userID topic lastSeq limit, decide (clampLimit limit ≤
          (fallbackPage sorter s ctx.userID topic lastSeq limit).length)) := by
  have hpos := clampLimit_pos limit
  unfold MessageService.forwardPage
  rw [hfault]
  by_cases hg : parseTopicType topic = .group
  · obtain ⟨groupMsgs, hgroup, hmain⟩ :=
      getGroupMessages_newer hg ctx.userID hseq (clampLimit limit) (s := s)
    obtain ⟨mentionMsgs, hmention, hsecond⟩ :=
      getMentionMessages_newer hg ctx.userID hseq (clampLimit limit) (s := s)
    have hmerged : MessageService.mergeAndSortMessages sorter groupMsgs mentionMsgs =
        sorter.sort (found s ctx.userID topic lastSeq limit) := by
      rw [MessageService.mergeAndSortMessages, hmain, hsecond, newer_clampLimit, newer_clampLimit,
        found]
    have hcut : ∀ merged : List PullMessage,
        (if clampLimit limit < merged.length then merged.take (clampLimit limit) else merged) =
          merged.take (clampLimit limit) := by
      intro merged
      split
      · rfl
      · exact (take_of_length_le (by omega)).symm
    simp only [hg, hgroup, hmention, hmerged, hcut, fallbackPage, if_true, hpos, and_true]
  · obtain ⟨msgs, hmsgs, hmain⟩ :=
      getOfflineMessages_newer hg ctx.userID hseq (clampLimit limit) (s := s)
    rw [newer_clampLimit] at hmain
    rw [fallbackPage, if_neg hg, ← hmain, length_map]
    cases htype : parseTopicType topic with
    | unknown => exact absurd htype ht
    | group => exact absurd htype hg
    | p2p | system => simp only [hmsgs, hpos, and_true]

section

variable {ctx : PullContext} {req : PullRequest} {canonical : String}
  (h : Authorised ctx req.topic canonical) (s : Store)
include h

theorem ne_empty_of_authorised : req.topic ≠ "" := by
  intro he
  have htopic := h.topic
  rw [he] at htopic
  cases htopic

theorem handlePull_authorised :
    handlePull ctx s (some req) =
      if req.Backward then
        match getHistoryMessages s ctx.userID canonical req.endSeq req.limit ctx.fault with
        | .error _ => .error ⟨5002, "failed to fetch messages"⟩
        | .ok (msgs, more) =>
          .ok ⟨msgs.map InboxMessage.toPull, more, (msgs.head?.map InboxMessage.topicSeq).getD 0⟩
      else
        match NonokaIM.forwardPage ctx s canonical req.lastSeq req.limit with
        | .error e => .error e
        | .ok (messages, hasMore) =>
          .ok ⟨messages, hasMore, (messages.getLast?.map (·.topicSeq + 1)).getD 0⟩ := by
  obtain ⟨canAccess, hauth, haccess⟩ := h.access
  simp only [handlePull, h.authed, ne_empty_of_authorised h, h.topic, hauth, haccess, Backward]
  rfl

theorem pullMessages_authorised (hu : ctx.userID ≠ 0) (sorter : SliceSort) :
    MessageService.pullMessages sorter ctx s req =
      if req.Backward then
        match getHistoryMessages s ctx.userID canonical req.endSeq req.limit ctx.fault with
        | .error _ => .ok .empty
        | .ok (msgs, more) =>
          .ok ⟨msgs.map InboxMessage.toPull, more, (msgs.head?.map InboxMessage.topicSeq).getD 0⟩
      else
        match MessageService.forwardPage sorter ctx s canonical req.lastSeq
            (clampLimit req.limit) with
        | none => .ok .empty
        | some (messages, hasMore) =>
          .ok ⟨messages, hasMore, (messages.getLast?.map (·.topicSeq + 1)).getD 0⟩ := by
  obtain ⟨canAccess, hauth, haccess⟩ := h.access
  simp only [MessageService.pullMessages, hu, ne_empty_of_authorised h, h.topic, hauth, haccess,
    Backward, getHistoryMessages_clampLimit]
  rfl

theorem querySeq_lt_of_handlePull {reply : PullReply}
    (hpull : handlePull ctx s (some req) = .ok reply) : req.querySeq < 2 ^ 63 := by
  rw [handlePull_authorised h] at hpull
  unfold querySeq
  split at hpull
  · rename_i hback
    rw [if_pos hback]
    split at hpull
    · cases hpull
    · rename_i hhistory
      exact endSeq_lt_of_getHistoryMessages hhistory
  · rename_i hforward
    rw [if_neg hforward]
    split at hpull
    · cases hpull
    · rename_i hpage
      exact lastSeq_lt_of_forwardPage hpage

variable (hu : ctx.userID ≠ 0) (sorter : SliceSort)
include hu

theorem sameReply_backward (hback : req.Backward) (hseq : req.querySeq < 2 ^ 63) :
    SameReply sorter ctx s req := by
  rw [querySeq, if_pos hback] at hseq
  have ht := parseTopicType_normalizeTopic h.topic
  rw [SameReply, handlePull_authorised h, pullMessages_authorised h s hu, if_pos hback,
    if_pos hback, h.faultless, getHistoryMessages_eq ht s ctx.userID hseq]
  exact ⟨_, rfl, rfl⟩

theorem sameReply_forward_iff (hforward : ¬ req.Backward) (hseq : req.querySeq < 2 ^ 63) :
    SameReply sorter ctx s req ↔
      fallbackPage sorter s ctx.userID canonical req.lastSeq req.limit =
        page s ctx.userID canonical req.lastSeq req.limit ∧
      (clampLimit req.limit ≤
          (fallbackPage sorter s ctx.userID canonical req.lastSeq req.limit).length ↔
        req.limit ≤ (page s ctx.userID canonical req.lastSeq req.limit).length ∧
          0 < req.limit) := by
  rw [querySeq, if_neg hforward] at hseq
  have ht := parseTopicType_normalizeTopic h.topic
  rw [SameReply, handlePull_authorised h, pullMessages_authorised h s hu, if_neg hforward,
    if_neg hforward, forwardPage_eq h.faultless ht s hseq,
    fallback_forwardPage_eq h.faultless ht sorter s hseq]
  constructor
  · rintro ⟨reply, hpull, hfallback⟩
    cases hpull
    simp only [Except.ok.injEq, PullReply.mk.injEq, decide_eq_decide] at hfallback
    exact ⟨hfallback.1, hfallback.2.1⟩
  · rintro ⟨hpage, hmore⟩
    refine ⟨_, rfl, ?_⟩
    simp only [Except.ok.injEq, PullReply.mk.injEq, decide_eq_decide]
    exact ⟨hpage, hmore, by rw [hpage]⟩

end

section

variable (s : Store) (userID : Int) (topic : String) (lastSeq : ℕ) (limit : Int)

theorem found_of_not_group (hg : parseTopicType topic ≠ .group) :
    found s userID topic lastSeq limit = newer lastSeq limit (mainMessages s userID topic) := by
  have hnone : newer lastSeq limit (mentionMessages s userID topic) = [] := by
    rw [mentionMessages, if_neg hg]
    exact take_nil
  rw [found, hnone, append_nil]

theorem length_fallbackPage (sorter : SliceSort) :
    (fallbackPage sorter s userID topic lastSeq limit).length =
      min (clampLimit limit) (found s userID topic lastSeq limit).length := by
  unfold fallbackPage
  split
  · rw [length_take, (sorter.perm _).length_eq]
  · rename_i hg
    rw [found_of_not_group s userID topic lastSeq limit hg, newer, length_take]
    omega

theorem mem_fallbackPage {sorter : SliceSort} {m : PullMessage}
    (h : m ∈ fallbackPage sorter s userID topic lastSeq limit) :
    m ∈ visibleMessages s userID topic ∧ lastSeq < m.topicSeq := by
  have hfound : m ∈ found s userID topic lastSeq limit := by
    unfold fallbackPage at h
    split at h
    · exact (sorter.perm _).mem_iff.mp (mem_of_mem_take h)
    · exact mem_append_left _ h
  rcases mem_append.mp hfound with hm | hm
  · exact (mem_of_mem_newer hm).imp_left (mem_append_left _)
  · exact (mem_of_mem_newer hm).imp_left (mem_append_right _)

/-- The limit of the request is the clamped one, or everything newer fits into the default page. -/
def LimitFits : Prop :=
  (0 < limit ∧ limit ≤ 100) ∨
    (visibleMessages s userID topic).countP (fun m => lastSeq < m.topicSeq) < 50

/-- A mention of the same seq as a message, with room for that seq on the page, is that message. -/
def SeqsUnshared : Prop :=
  ∀ g ∈ mainMessages s userID topic, ∀ d ∈ mentionMessages s userID topic,
    d.topicSeq = g.topicSeq → lastSeq < g.topicSeq →
    (visibleMessages s userID topic).countP (fun m =>
      lastSeq < m.topicSeq ∧ m.topicSeq < g.topicSeq) < clampLimit limit → d = g

theorem limitFits_iff : LimitFits s userID topic lastSeq limit ↔
    (0 < limit ∧ limit ≤ 100) ∨ (found s userID topic lastSeq limit).length < 50 := by
  by_cases hrange : 0 < limit ∧ limit ≤ 100
  · exact iff_of_true (.inl hrange) (.inl hrange)
  rw [LimitFits, or_iff_right hrange, or_iff_right hrange, visibleMessages, countP_append, found,
    length_append, newer, newer, length_take, length_take, length_ascending, length_ascending,
    ← countP_eq_length_filter, ← countP_eq_length_filter, clampLimit_default hrange]
  omega

theorem page_eq_take (hfits : LimitFits s userID topic lastSeq limit) :
    page s userID topic lastSeq limit =
      (ascending topicSeq (found s userID topic lastSeq limit)).take (clampLimit limit) := by
  by_cases hrange : 0 < limit ∧ limit ≤ 100
  · rw [page, if_pos hrange.1, clampLimit_eq hrange]
    rfl
  · have hsmall : (found s userID topic lastSeq limit).length < 50 :=
      ((limitFits_iff s userID topic lastSeq limit).mp hfits).resolve_left hrange
    rw [page_default s userID topic lastSeq hrange, clampLimit_default hrange,
      take_of_length_le (by rw [length_ascending]; omega)]
    rfl

theorem hasMore_iff (sorter : SliceSort) (hpage : fallbackPage sorter s userID topic lastSeq limit =
      page s userID topic lastSeq limit) :
    (clampLimit limit ≤ (fallbackPage sorter s userID topic lastSeq limit).length ↔
        limit ≤ (page s userID topic lastSeq limit).length ∧ 0 < limit) ↔
      LimitFits s userID topic lastSeq limit := by
  have hlen := length_fallbackPage s userID topic lastSeq limit sorter
  rw [← hpage, hlen, limitFits_iff]
  by_cases hrange : 0 < limit ∧ limit ≤ 100
  · rw [clampLimit_eq hrange]
    omega
  · rw [clampLimit_default hrange]
    omega

end

/-! ## Orders of equal seqs -/

theorem SliceSort.exists_sort {messages order : List PullMessage} (hperm : order.Perm messages)
    (hsorted : Sorted topicSeq order) :
    ∃ sorter : SliceSort, sorter.sort messages = order := by
  refine ⟨⟨fun ms => if ms = messages then order
    else NonokaIM.ascending topicSeq ms, ?_, ?_⟩, if_pos rfl⟩
  · intro ms
    split
    · rename_i he
      rw [he]
      exact hperm
    · exact perm_insertionSort _ ms
  · intro ms
    split
    · exact hsorted
    · exact ascending_pairwise ms

theorem sort_take_iff (messages : List PullMessage) (n : ℕ) :
    (∀ sorter : SliceSort, (sorter.sort messages).take n =
        (ascending topicSeq messages).take n) ↔
      ∀ x ∈ (ascending topicSeq messages).take n, ∀ y ∈ messages,
        y.topicSeq = x.topicSeq → y = x := by
  have hperm : (ascending topicSeq messages).Perm messages :=
    perm_insertionSort _ messages
  have hsorted : Sorted topicSeq (ascending topicSeq messages) :=
    ascending_pairwise messages
  have hiff := take_eq_iff (n := n) hsorted
  simp only [mem_ascending] at hiff
  rw [← hiff]
  constructor
  · intro hall order horder hsorted
    obtain ⟨sorter, hsort⟩ := SliceSort.exists_sort (horder.trans hperm) hsorted
    rw [← hsort]
    exact hall sorter
  · intro hall sorter
    exact hall _ ((sorter.perm messages).trans hperm.symm) (sorter.ascending messages)

theorem seqsUnshared_main (s : Store) (userID : Int) {topic : String}
    (hg : parseTopicType topic ≠ .group) (lastSeq : ℕ) (limit : Int) :
    SeqsUnshared s userID topic lastSeq limit := by
  intro g _ d hd
  rw [mentionMessages, if_neg hg] at hd
  cases hd

/-- The messages found with the smallest seqs share them with nobody exactly if the rows do not. -/
theorem seqsUnshared_iff (s : Store) (userID : Int) (topic : String) (lastSeq : ℕ) (limit : Int) :
    SeqsUnshared s userID topic lastSeq limit ↔
      ∀ x ∈ (ascending topicSeq (found s userID topic lastSeq limit)).take (clampLimit limit),
        ∀ y ∈ found s userID topic lastSeq limit, y.topicSeq = x.topicSeq → y = x := by
  have hmain := mainMessages_nodup s userID topic
  have hmention := mentionMessages_nodup s userID topic
  have hsorted : Sorted topicSeq
      (ascending topicSeq (found s userID topic lastSeq limit)) := ascending_pairwise _
  have hcount : ∀ q, (ascending topicSeq (found s userID topic lastSeq limit)).countP
      (fun m => m.topicSeq < q) = min (clampLimit limit) ((mainMessages s userID topic).countP
        fun m => lastSeq < m.topicSeq ∧ m.topicSeq < q) + min (clampLimit limit)
        ((mentionMessages s userID topic).countP
          fun m => lastSeq < m.topicSeq ∧ m.topicSeq < q) := by
    intro q
    rw [(perm_ascending _).countP_eq, found, countP_append,
      countP_newer fun a b h h' => Nat.lt_of_le_of_lt h h',
      countP_newer fun a b h h' => Nat.lt_of_le_of_lt h h']
  constructor
  · intro hshare x hx y hy hseq
    have hroom := ((exists_mem_take_iff hsorted _ _).mp ⟨x, hx, rfl⟩).2
    rw [hcount] at hroom
    have hpair : ∀ g ∈ newer lastSeq limit (mainMessages s userID topic),
        ∀ d ∈ newer lastSeq limit (mentionMessages s userID topic),
        d.topicSeq = g.topicSeq → g.topicSeq = x.topicSeq → d = g := by
      intro g hg d hd hdg hgx
      obtain ⟨hg, hlast⟩ := mem_of_mem_newer hg
      refine hshare g hg d (mem_of_mem_newer hd).1 hdg hlast ?_
      rw [visibleMessages, countP_append, hgx]
      omega
    rcases mem_append.mp (mem_ascending.mp (mem_of_mem_take hx)) with hx | hx <;>
      rcases mem_append.mp hy with hy | hy
    · exact inj_on_of_nodup_map hmain (mem_of_mem_newer hy).1 (mem_of_mem_newer hx).1 hseq
    · exact hpair x hx y hy hseq rfl
    · exact (hpair y hy x hx hseq.symm hseq).symm
    · exact inj_on_of_nodup_map hmention (mem_of_mem_newer hy).1 (mem_of_mem_newer hx).1 hseq
  · intro hfirst g hg d hd hseq hlast hroom
    rw [visibleMessages, countP_append] at hroom
    have hgfound : g ∈ found s userID topic lastSeq limit :=
      mem_append_left _ ((mem_newer_iff hmain hg lastSeq limit).mpr ⟨hlast, by omega⟩)
    have hdfound : d ∈ found s userID topic lastSeq limit :=
      mem_append_right _ ((mem_newer_iff hmention hd lastSeq limit).mpr
        ⟨hseq ▸ hlast, by rw [hseq]; omega⟩)
    obtain ⟨x, hx, hxg⟩ := (exists_mem_take_iff hsorted g.topicSeq (clampLimit limit)).mpr
      ⟨⟨g, mem_ascending.mpr hgfound, rfl⟩, by rw [hcount]; omega⟩
    rw [hfirst x hx d hdfound (hseq.trans hxg.symm), hfirst x hx g hgfound hxg.symm]

/-! ## Agreement -/

theorem fallbackPage_eq_iff (s : Store) (userID : Int) (topic : String) (lastSeq : ℕ)
    (limit : Int) (hfits : LimitFits s userID topic lastSeq limit) :
    (∀ sorter, fallbackPage sorter s userID topic lastSeq limit =
        page s userID topic lastSeq limit) ↔
      SeqsUnshared s userID topic lastSeq limit := by
  by_cases hg : parseTopicType topic = .group
  · have hpage := page_eq_take s userID topic lastSeq limit hfits
    unfold fallbackPage
    simp only [hg, if_true, hpage, seqsUnshared_iff]
    exact sort_take_iff _ _
  · constructor
    · intro _
      exact seqsUnshared_main s userID hg lastSeq limit
    · intro _ sorter
      rw [fallbackPage, if_neg hg, page_of_not_group hg]

/-- No query overflows; and the request is backward, or its limit fits and no message of the page
shares its seq. -/
def EndpointsFit (s : Store) (userID : Int) (topic : String) (req : PullRequest) : Prop :=
  req.querySeq < 2 ^ 63 ∧ (req.Backward ∨ (LimitFits s userID topic req.lastSeq req.limit ∧
    SeqsUnshared s userID topic req.lastSeq req.limit))

/-- The two endpoints give an authorised user the same reply, however equal seqs are ordered,
exactly if the request fits. -/
theorem endpoints_agree_iff {ctx : PullContext} {req : PullRequest} {canonical : String}
    (h : Authorised ctx req.topic canonical) (hu : ctx.userID ≠ 0) (s : Store) :
    (∀ sorter, SameReply sorter ctx s req) ↔ EndpointsFit s ctx.userID canonical req := by
  constructor
  · intro hall
    obtain ⟨sorter, _⟩ := SliceSort.exists_sort (Perm.refl []) Pairwise.nil
    obtain ⟨reply, hpull, _⟩ := hall sorter
    have hseq := querySeq_lt_of_handlePull h s hpull
    refine ⟨hseq, or_iff_not_imp_left.mpr fun hforward => ?_⟩
    have hpages := fun sorter =>
      (sameReply_forward_iff h s hu sorter hforward hseq).mp (hall sorter)
    have hfits := (hasMore_iff _ _ _ _ _ sorter (hpages sorter).1).mp (hpages sorter).2
    exact ⟨hfits, (fallbackPage_eq_iff _ _ _ _ _ hfits).mp fun sorter => (hpages sorter).1⟩
  · rintro ⟨hseq, hfit⟩ sorter
    by_cases hback : req.Backward
    · exact sameReply_backward h s hu sorter hback hseq
    obtain ⟨hfits, hunshared⟩ := hfit.resolve_left hback
    have hpage := (fallbackPage_eq_iff _ _ _ _ _ hfits).mpr hunshared sorter
    exact (sameReply_forward_iff h s hu sorter hback hseq).mpr
      ⟨hpage, (hasMore_iff _ _ _ _ _ sorter hpage).mpr hfits⟩

theorem spaced_messages_agree :
    Authorised { userID := 2 } "p2p_2_1" "p2p_1_2" ∧
      ∀ sorter, SameReply sorter { userID := 2 } (received [2, 4])
        { topic := "p2p_2_1", lastSeq := 1, limit := 1 } := by
  refine ⟨reader_authorised, ?_⟩
  have hreader : Authorised { userID := 2 }
      ({ topic := "p2p_2_1", lastSeq := 1, limit := 1 } : PullRequest).topic "p2p_1_2" :=
    reader_authorised
  apply (endpoints_agree_iff hreader (by decide) (received [2, 4])).mpr
  exact ⟨by decide, .inr ⟨.inl (by decide), seqsUnshared_main _ _ (by decide) _ _⟩⟩

/-- With fifty newer messages and no limit in the request, only the fallback announces more. -/
theorem default_limit_disagrees :
    ¬ ∃ sorter, SameReply sorter { userID := 2 } (received (range' 2 50))
      { topic := "p2p_2_1", lastSeq := 1 } := by
  rintro ⟨sorter, hsame⟩
  have hreader : Authorised { userID := 2 }
      ({ topic := "p2p_2_1", lastSeq := 1 } : PullRequest).topic "p2p_1_2" := reader_authorised
  have hforward := (sameReply_forward_iff hreader _ (by decide) sorter (by decide)
    (by decide)).mp hsame
  have hfits := (hasMore_iff _ _ _ _ _ sorter hforward.1).mp hforward.2
  rcases hfits with hrange | hsmall
  · exact absurd hrange (by decide)
  · exact absurd hsmall (by decide +kernel)

end NonokaIM
