import NonokaIM.Verification.Pull.History

/-! What a pull shows of a stored row: backward pages of a group leave out the recalled flag. -/

namespace NonokaIM

open DocumentStore LatestFirst List PullMessage

def storedRow (s : Store) (userID : Int) (topic : String) (seq : ℕ) : Option PullMessage :=
  ((mainMessages s userID topic).find? (·.topicSeq = seq)).or
    ((mentionMessages s userID topic).find? (·.topicSeq = seq))

theorem find_of_nodup {messages : List PullMessage}
    (h : (messages.map topicSeq).Nodup) {m : PullMessage} (hm : m ∈ messages) :
    messages.find? (·.topicSeq = m.topicSeq) = some m := by
  rw [← head?_filter, filter_of_nodup h hm]
  rfl

section

variable {s : Store} {userID : Int} {topic : String} {m : PullMessage}

theorem storedRow_of_main (hm : m ∈ mainMessages s userID topic) :
    storedRow s userID topic m.topicSeq = some m := by
  rw [storedRow, find_of_nodup (mainMessages_nodup s userID topic) hm, Option.some_or]

theorem storedRow_of_mention (hm : m ∈ mentionMessages s userID topic)
    (hfree : ∀ g ∈ mainMessages s userID topic, g.topicSeq ≠ m.topicSeq) :
    storedRow s userID topic m.topicSeq = some m := by
  have hnone : (mainMessages s userID topic).find? (·.topicSeq = m.topicSeq) = none := by
    simpa using hfree
  rw [storedRow, hnone, find_of_nodup (mentionMessages_nodup s userID topic) hm, Option.none_or]

end

/-! ## Backward pages -/

/-- The shape in which a group message or mention comes out of the storage. -/
def PullMessage.unrecalled (m : PullMessage) : PullMessage := { m with recalled := false }

theorem unrecalled_eq_iff {m : PullMessage} : m.unrecalled = m ↔ m.recalled = false := by
  cases m
  simp [unrecalled, eq_comm]

variable {topic : String}

theorem getHistoryMessages_of_fault {s : Store} {userID : Int} {endSeq : ℕ}
    {limit : Int} {fault : PullFault} {r : List InboxMessage × Bool}
    (h : getHistoryMessages s userID topic endSeq limit fault = .ok r) :
    getHistoryMessages s userID topic endSeq limit {} = .ok r := by
  have hseq := endSeq_lt_of_getHistoryMessages h
  unfold getHistoryMessages at h ⊢
  simp only [queryFault_of_lt hseq] at h ⊢
  cases htype : parseTopicType topic with
  | unknown =>
    rw [htype] at h
    cases h
  | group =>
    rw [htype] at h
    cases hgroup : fault.group with
    | some err =>
      simp only [hgroup] at h
      cases h
    | none =>
      cases hmention : fault.mention with
      | some err =>
        simp only [hgroup, hmention] at h
        cases h
      | none => simpa only [hgroup, hmention] using h
  | p2p | system =>
    rw [htype] at h
    cases hinbox : fault.inbox with
    | some err =>
      simp only [hinbox] at h
      cases h
    | none => simpa only [hinbox] using h

/-- The storage leaves inbox rows as they are and drops the recalled flag of all others. -/
def shown (topic : String) (row : PullMessage) : PullMessage :=
  if parseTopicType topic = .group then row.unrecalled else row

section

variable {s : Store} {userID : Int} {topic : String}

variable {r : InboxMessage} {endSeq : ℕ}

theorem mem_mainRows (hr : r ∈ mainRows s userID topic) :
    ∃ m ∈ mainMessages s userID topic, m.topicSeq = r.topicSeq ∧ r.toPull = shown topic m := by
  unfold mainRows at hr
  unfold mainMessages shown
  split at hr
  · rename_i hg
    obtain ⟨m, hm, rfl⟩ := mem_map.mp hr
    simp only [hg, if_true]
    exact ⟨m.toPull, mem_map_of_mem hm, rfl, rfl⟩
  · rename_i hg
    simp only [hg, if_false]
    exact ⟨r.toPull, mem_map_of_mem hr, rfl, rfl⟩

theorem mem_mentionRows (hr : r ∈ mentionRows s userID topic) :
    ∃ m ∈ mentionMessages s userID topic, m.topicSeq = r.topicSeq ∧ r.toPull = shown topic m := by
  unfold mentionRows at hr
  unfold mentionMessages shown
  split at hr
  · rename_i hg
    obtain ⟨m, hm, rfl⟩ := mem_map.mp hr
    simp only [hg, if_true]
    exact ⟨m.toPull, mem_map_of_mem hm, rfl, rfl⟩
  · cases hr

theorem mem_of_mem_older {fetch : ℕ} {rows : List InboxMessage} (h : r ∈ older endSeq fetch rows) :
    r ∈ rows :=
  (mem_filter.mp (mem_descending.mp (mem_of_mem_take h))).1

theorem main_ne_of_mention {limit : Int}
    (hpage : r.topicSeq ∈ (below (cursor endSeq) (visibleDown s userID topic)).take
      (clampLimit limit + 1))
    (hcut : ∀ x ∈ older endSeq (clampLimit limit + 1) (mainRows s userID topic),
      x.topicSeq ≠ r.topicSeq) : ∀ g ∈ mainMessages s userID topic, g.topicSeq ≠ r.topicSeq := by
  intro g hg hseq
  have hnodup := mainRows_nodup s userID topic
  have hmain : r.topicSeq ∈ below (cursor endSeq)
      (sortDown ((mainRows s userID topic).map InboxMessage.topicSeq)) := by
    rw [mem_below, mem_sortDown, mainRows_seqs, ← hseq]
    exact ⟨mem_map_of_mem hg, hseq ▸ (mem_below.mp (mem_of_mem_take hpage)).2⟩
  have hsub : ∀ seq ∈ below (cursor endSeq)
      (sortDown ((mainRows s userID topic).map InboxMessage.topicSeq)),
      seq ∈ below (cursor endSeq) (visibleDown s userID topic) := by
    intro seq h
    rw [mem_below, mem_sortDown] at h
    exact mem_below.mpr ⟨(mem_visibleDown s userID topic).mpr (.inl h.1), h.2⟩
  have htop := mem_take_of_part (below_pairwise (sortDown_strict hnodup) _)
    (below_pairwise (visibleDown_strict s userID topic) _) hsub hmain hpage
  rw [← older_seqs endSeq _ hnodup] at htop
  obtain ⟨x, hx, hxseq⟩ := mem_map.mp htop
  exact hcut x hx hxseq

theorem history_shows {limit : Int} {fault : PullFault} {messages : List InboxMessage} {more : Bool}
    (h : getHistoryMessages s userID topic endSeq limit fault = .ok (messages, more))
    {m : InboxMessage} (hm : m ∈ messages) :
    ∃ row, storedRow s userID topic m.topicSeq = some row ∧ m.toPull = shown topic row := by
  have ht : parseTopicType topic ≠ .unknown := by
    intro ht
    simp [getHistoryMessages, ht] at h
  have hfree := getHistoryMessages_of_fault h
  obtain ⟨messages', more', hpage, hseqs, _⟩ :=
    history_page s userID ht (endSeq_lt_of_getHistoryMessages h) limit
  rw [hfree] at hpage
  cases hpage
  rw [getHistoryMessages_eq ht s userID (endSeq_lt_of_getHistoryMessages h)] at hfree
  cases hfree
  have hseq : m.topicSeq ∈ (below (cursor endSeq) (visibleDown s userID topic)).take
      (clampLimit limit + 1) := by
    have hin := mem_map_of_mem (f := InboxMessage.topicSeq) hm
    rw [hseqs, mem_reverse] at hin
    exact (take_subset_take_left _ (Nat.le_succ _)) hin
  have hmerged : m ∈ mergedHistory s userID topic endSeq limit :=
    mem_descending.mp (mem_of_mem_take (mem_reverse.mp hm))
  rcases mem_addMissing hmerged with hmain | ⟨hmention, hcut⟩
  · obtain ⟨row, hrow, hrseq, hshown⟩ := mem_mainRows (mem_of_mem_older hmain)
    exact ⟨row, hrseq ▸ storedRow_of_main hrow, hshown⟩
  · obtain ⟨row, hrow, hrseq, hshown⟩ := mem_mentionRows (mem_of_mem_older hmention)
    have hnone := main_ne_of_mention hseq hcut
    rw [← hrseq] at hnone
    exact ⟨row, hrseq ▸ storedRow_of_mention hrow hnone, hshown⟩

end

section

variable {ctx : PullContext} {s : Store} {topic : String} {lastSeq : ℕ} {limit : Int}

variable {messages : List PullMessage} {more : Bool}

theorem forwardPage_ok (h : forwardPage ctx s topic lastSeq limit = .ok (messages, more)) :
    ((parseTopicType topic = .group → ctx.fault.mention = none) ∧
      messages = page s ctx.userID topic lastSeq limit) ∨
    (ctx.fault.mention ≠ none ∧ ∀ m ∈ messages, m ∈ mainMessages s ctx.userID topic) := by
  have hseq := lastSeq_lt_of_forwardPage h
  have ht : parseTopicType topic ≠ .unknown := by
    intro ht
    simp [forwardPage, ht] at h
  have hpage : forwardPage { ctx with fault := {} } s topic lastSeq limit =
      forwardPage ctx s topic lastSeq limit →
      messages = page s ctx.userID topic lastSeq limit := by
    intro hsame
    rw [forwardPage_eq rfl ht s hseq, h] at hsame
    cases hsame
    rfl
  by_cases hg : parseTopicType topic = .group
  · cases hgroup : ctx.fault.group with
    | some err =>
      simp only [forwardPage, hg, hgroup, getGroupMessages, queryFault_of_lt hseq] at h
      cases h
    | none =>
      cases hmention : ctx.fault.mention with
      | none =>
        refine .inl ⟨fun _ => rfl, hpage ?_⟩
        simp only [forwardPage, hg, hgroup, hmention]
      | some err =>
        -- without an answer about mentions the page has none
        refine .inr ⟨Option.some_ne_none err, ?_⟩
        obtain ⟨rows, hrows, hnewer⟩ := getGroupMessages_newer hg ctx.userID hseq limit (s := s)
        simp only [forwardPage, hg, hgroup, hmention, hrows, getMentionMessages,
          queryFault_of_lt hseq] at h
        cases h
        intro m hm
        have hmerged : m ∈ mergeAndSortMessages rows [] := by
          split at hm
          · exact mem_of_mem_take hm
          · exact hm
        rw [mergeAndSortMessages, map_nil, append_nil, mem_ascending, hnewer] at hmerged
        exact (mem_of_mem_newer hmerged).1
  · refine .inl ⟨fun h => absurd h hg, ?_⟩
    cases hinbox : ctx.fault.inbox with
    | some err =>
      simp only [forwardPage, getOfflineMessages, hinbox, queryFault_of_lt hseq] at h
      split at h <;> first | cases h | contradiction
    | none =>
      apply hpage
      simp only [forwardPage, getOfflineMessages, hinbox, if_neg hg]
      split <;> first | rfl | contradiction

theorem mem_forwardPage (h : forwardPage ctx s topic lastSeq limit = .ok (messages, more))
    {m : PullMessage} (hm : m ∈ messages) :
    m ∈ mainMessages s ctx.userID topic ∨ m ∈ mentionMessages s ctx.userID topic := by
  rcases forwardPage_ok h with ⟨-, rfl⟩ | ⟨-, hmain⟩
  · exact mem_append.mp (mem_page s ctx.userID topic lastSeq hm).1
  · exact .inl (hmain m hm)

end

/-! ## Mentions on a forward page -/

section

variable {s : Store} {userID : Int} {topic : String} {lastSeq : ℕ} {limit : Int} {d : PullMessage}

/-- How many messages a forward page shows before a mention with this seq: the mentions before it,
and if the page is cut as a whole, the messages up to it. -/
def shownBefore (s : Store) (userID : Int) (topic : String) (lastSeq : ℕ) (limit : Int) (seq : ℕ) :
    ℕ :=
  (if 0 < limit ∧ limit ≤ 100 then
    (mainMessages s userID topic).countP fun m => lastSeq < m.topicSeq ∧ m.topicSeq ≤ seq
  else 0) + (mentionMessages s userID topic).countP fun m => lastSeq < m.topicSeq ∧ m.topicSeq < seq

theorem mention_mem_page_iff (hd : d ∈ mentionMessages s userID topic)
    (hfree : d ∉ mainMessages s userID topic) :
    d ∈ page s userID topic lastSeq limit ↔ lastSeq < d.topicSeq ∧
      shownBefore s userID topic lastSeq limit d.topicSeq < clampLimit limit := by
  have hmain : d ∉ newer lastSeq limit (mainMessages s userID topic) :=
    fun hmem => hfree (mem_of_mem_newer hmem).1
  have hmention := mem_newer_iff (mentionMessages_nodup s userID topic) hd lastSeq limit
  unfold shownBefore
  by_cases hrange : 0 < limit ∧ limit ≤ 100
  · rw [page, if_pos hrange.1, ← clampLimit_eq hrange, mergedPage, if_pos hrange]
    by_cases hin : d ∈ newer lastSeq limit (mentionMessages s userID topic)
    · have hnewer :
          ((newer lastSeq limit (mentionMessages s userID topic)).map topicSeq).Nodup := by
        rw [newer_seqs]
        exact (mentionSeqs_nodup s userID topic).sublist ((take_sublist _ _).trans filter_sublist)
      obtain ⟨hlast, hroom⟩ := hmention.mp hin
      rw [mem_take_ascending_iff hnewer hin hmain, countP_newer fun a b h h' => h.trans h',
        countP_newer fun a b h h' => Nat.lt_of_le_of_lt h h']
      omega
    · have hout : d ∉ newer lastSeq limit (mainMessages s userID topic) ++
          newer lastSeq limit (mentionMessages s userID topic) := by
        simp [hmain, hin]
      refine iff_of_false (fun hmem => hout (mem_ascending.mp (mem_of_mem_take hmem))) ?_
      rintro ⟨hlast, hroom⟩
      exact hin (hmention.mpr ⟨hlast, by omega⟩)
  · rw [page_default s userID topic lastSeq hrange, if_neg hrange, Nat.zero_add, ← hmention,
      mergedPage, mem_ascending, mem_append, or_iff_right hmain]

theorem mention_mem_forwardPage_iff {ctx : PullContext} {messages : List PullMessage} {more : Bool}
    (h : forwardPage ctx s topic lastSeq limit = .ok (messages, more))
    (hd : d ∈ mentionMessages s ctx.userID topic) (hfree : d ∉ mainMessages s ctx.userID topic) :
    d ∈ messages ↔ ctx.fault.mention = none ∧ d ∈ page s ctx.userID topic lastSeq limit := by
  have hg : parseTopicType topic = .group := by
    by_contra hn
    rw [mentionMessages, if_neg hn] at hd
    cases hd
  rcases forwardPage_ok h with ⟨hnone, rfl⟩ | ⟨hsome, hmain⟩
  · rw [and_iff_right (hnone hg)]
  · exact iff_of_false (fun hm => hfree (hmain d hm)) fun hand => hsome hand.1

end

/-! ## Every pull -/

theorem handlePull_ok {ctx : PullContext} {s : Store} {req : PullRequest} {reply : PullReply}
    (h : handlePull ctx s (some req) = .ok reply) (ht : normalizeTopic req.topic = .ok topic) :
    (req.Backward ∧ ∃ msgs more,
      getHistoryMessages s ctx.userID topic req.endSeq req.limit ctx.fault = .ok (msgs, more) ∧
      reply.messages = msgs.map InboxMessage.toPull) ∨ (¬ req.Backward ∧ ∃ more,
      forwardPage ctx s topic req.lastSeq req.limit = .ok (reply.messages, more)) := by
  have hauthed : ctx.authed = true := by
    by_contra hn
    have hfalse : ctx.authed = false := by simpa using hn
    simp [handlePull, hfalse] at h
  have hne : req.topic ≠ "" := by
    intro he
    rw [he] at ht
    cases ht
  cases haccess : ctx.canAccessTopic with
  | none => simp [handlePull, hauthed, hne, ht, haccess] at h
  | some canAccess =>
    have hcan : canAccess topic = true := by
      by_contra hn
      have hfalse : canAccess topic = false := by simpa using hn
      simp [handlePull, hauthed, hne, ht, haccess, hfalse] at h
    by_cases hback : req.Backward
    · have hmode : 0 < req.endSeq ∨ req.lastSeq = 0 := hback
      simp only [handlePull, hauthed, hne, ht, haccess, hcan, hmode, Bool.not_true,
        Bool.false_eq_true, if_false, if_true] at h
      split at h
      · cases h
      · rename_i msgs more hhistory
        cases h
        exact .inl ⟨hback, msgs, more, hhistory, rfl⟩
    · have hmode : ¬ (0 < req.endSeq ∨ req.lastSeq = 0) := hback
      simp only [handlePull, hauthed, hne, ht, haccess, hcan, hmode, Bool.not_true,
        Bool.false_eq_true, if_false] at h
      split at h
      · cases h
      · rename_i messages more hforward
        cases h
        exact .inr ⟨hback, more, hforward⟩

/-- For a group: no row is recalled whose seq is one of the latest before `end_seq`, as many as a
backward page takes; and a mention with room on a forward page has the same content as the message
of its seq. -/
def RowsShown (ctx : PullContext) (s : Store) (topic : String) (req : PullRequest) : Prop :=
  parseTopicType topic = .group →
    if req.Backward then
      ∀ seq ∈ (below (cursor req.endSeq) (visibleDown s ctx.userID topic)).take
          (clampLimit req.limit),
        ∀ row, storedRow s ctx.userID topic seq = some row → row.recalled = false
    else
      ctx.fault.mention = none →
        ∀ g ∈ mainMessages s ctx.userID topic, ∀ d ∈ mentionMessages s ctx.userID topic,
          d.topicSeq = g.topicSeq → req.lastSeq < d.topicSeq →
          shownBefore s ctx.userID topic req.lastSeq req.limit d.topicSeq <
            clampLimit req.limit → d = g

section

variable {s : Store} {userID : Int} {topic : String} {messages : List PullMessage}

theorem shown_rows_agree_iff (hshown : ∀ m ∈ messages, ∃ row,
      storedRow s userID topic m.topicSeq = some row ∧ m = shown topic row) :
    (∀ m ∈ messages, storedRow s userID topic m.topicSeq = some m) ↔
      (parseTopicType topic = .group → ∀ m ∈ messages, ∀ row,
        storedRow s userID topic m.topicSeq = some row → row.recalled = false) := by
  constructor
  · intro hagree hg m hm row hrow
    rcases hshown m hm with ⟨row', hrow', heq⟩
    have hself := hagree m hm
    rw [hrow] at hself hrow'
    cases hrow'
    rw [shown, if_pos hg] at heq
    cases hself
    exact unrecalled_eq_iff.mp heq.symm
  · intro hflag m hm
    rcases hshown m hm with ⟨row, hrow, heq⟩
    have hsame : m = row := by
      by_cases hg : parseTopicType topic = .group
      · rw [heq, shown, if_pos hg, unrecalled_eq_iff.mpr (hflag hg m hm row hrow)]
      · rw [heq, shown, if_neg hg]
    rw [hrow, hsame]

theorem merged_rows_agree_iff (hstored : ∀ m ∈ messages,
      m ∈ mainMessages s userID topic ∨ m ∈ mentionMessages s userID topic) :
    (∀ m ∈ messages, storedRow s userID topic m.topicSeq = some m) ↔
      (parseTopicType topic = .group →
        ∀ g ∈ mainMessages s userID topic, ∀ d ∈ mentionMessages s userID topic,
          d.topicSeq = g.topicSeq → d ∈ messages → d = g) := by
  constructor
  · intro hagree _ g hg d _ hseq hmem
    have hd := hagree d hmem
    rw [hseq, storedRow_of_main hg] at hd
    cases hd
    rfl
  · intro hsame m hm
    rcases hstored m hm with hmain | hmention
    · exact storedRow_of_main hmain
    · by_cases hfree : ∀ g ∈ mainMessages s userID topic, g.topicSeq ≠ m.topicSeq
      · exact storedRow_of_mention hmention hfree
      simp only [not_forall, not_not] at hfree
      rcases hfree with ⟨g, hg, hseq⟩
      have hgroup : parseTopicType topic = .group := by
        by_contra hn
        rw [mentionMessages, if_neg hn] at hmention
        cases hmention
      rw [hsame hgroup g hg m hmention hseq.symm hm]
      exact storedRow_of_main hg

end

theorem history_seqs {s : Store} {userID : Int} {endSeq : ℕ} {limit : Int}
    {fault : PullFault} {messages : List InboxMessage} {more : Bool}
    (h : getHistoryMessages s userID topic endSeq limit fault = .ok (messages, more)) {seq : ℕ} :
    (∃ m ∈ messages, m.topicSeq = seq) ↔
      seq ∈ (below (cursor endSeq) (visibleDown s userID topic)).take (clampLimit limit) := by
  have ht : parseTopicType topic ≠ .unknown := by
    intro ht
    simp [getHistoryMessages, ht] at h
  obtain ⟨messages', more', hpage, hseqs, -⟩ :=
    history_page s userID ht (endSeq_lt_of_getHistoryMessages h) limit
  rw [getHistoryMessages_of_fault h] at hpage
  cases hpage
  rw [← mem_map, hseqs, mem_reverse]

/-- A pull returns every message as the row of its seq is stored exactly if the rows are shown. -/
theorem pulled_rows_agree_iff {ctx : PullContext} {s : Store} {req : PullRequest}
    {reply : PullReply} {topic : String} (h : handlePull ctx s (some req) = .ok reply)
    (ht : normalizeTopic req.topic = .ok topic) :
    (∀ m ∈ reply.messages, storedRow s ctx.userID topic m.topicSeq = some m) ↔
      RowsShown ctx s topic req := by
  unfold RowsShown
  rcases handlePull_ok h ht with ⟨hback, msgs, more, hhistory, hmsgs⟩ | ⟨hforward, more, hpage⟩
  · simp only [if_pos hback, hmsgs]
    rw [shown_rows_agree_iff]
    · refine imp_congr_right fun _ => ?_
      simp only [← history_seqs hhistory, mem_map]
      constructor
      · rintro hrows seq ⟨m, hm, rfl⟩
        exact hrows m.toPull ⟨m, hm, rfl⟩
      · rintro hrows - ⟨m, hm, rfl⟩
        exact hrows m.topicSeq ⟨m, hm, rfl⟩
    · intro m hm
      rcases mem_map.mp hm with ⟨r, hr, rfl⟩
      exact history_shows hhistory hr
  · simp only [if_neg hforward]
    rw [merged_rows_agree_iff fun m hm => mem_forwardPage hpage hm]
    refine imp_congr_right fun _ => ?_
    have hnodup := mainMessages_nodup s ctx.userID topic
    have hfree : ∀ g ∈ mainMessages s ctx.userID topic, ∀ d : PullMessage,
        d.topicSeq = g.topicSeq → d ≠ g → d ∉ mainMessages s ctx.userID topic :=
      fun g hg d hseq hne hd => hne (inj_on_of_nodup_map hnodup hd hg hseq)
    constructor
    · intro hsame hnone g hg d hd hseq hlast hroom
      by_contra hne
      have hout := hfree g hg d hseq hne
      have hmem := (mention_mem_page_iff hd hout).mpr ⟨hlast, hroom⟩
      exact hne (hsame g hg d hd hseq
        ((mention_mem_forwardPage_iff hpage hd hout).mpr ⟨hnone, hmem⟩))
    · intro hsame g hg d hd hseq hmem
      by_contra hne
      have hout := hfree g hg d hseq hne
      obtain ⟨hnone, hshown⟩ := (mention_mem_forwardPage_iff hpage hd hout).mp hmem
      obtain ⟨hlast, hroom⟩ := (mention_mem_page_iff hd hout).mp hshown
      exact hne (hsame hnone g hg d hd hseq hlast hroom)

def recalledGroup : Store where
  messages := ⟨[⟨7, "grp_1", 2, 0, [], 0, 3, "", true, 0⟩,
    ⟨8, "grp_1", 2, 0, [105], 0, 5, "", false, 0⟩], by decide⟩

theorem forward_page_shows_recalled_row :
    ∃ reply, handlePull { userID := 1 } recalledGroup
        (some { topic := "grp_1", lastSeq := 1, limit := 1 }) = .ok reply ∧
      ∀ m ∈ reply.messages, storedRow recalledGroup 1 "grp_1" m.topicSeq = some m := by
  have hpull : handlePull { userID := 1 } recalledGroup
      (some { topic := "grp_1", lastSeq := 1, limit := 1 }) =
        .ok ⟨[⟨7, "grp_1", 2, 0, [], 0, 3, "", true⟩], true, 4⟩ := by
    decide
  refine ⟨_, hpull, ?_⟩
  apply (pulled_rows_agree_iff hpull (by decide)).mpr
  intro _
  rw [if_neg (by decide)]
  decide

/-- The latest page shows the recalled message as not recalled. -/
theorem latest_page_hides_recall :
    ∃ reply, handlePull { userID := 1 } recalledGroup (some { topic := "grp_1" }) = .ok reply ∧
      ¬ ∀ m ∈ reply.messages, storedRow recalledGroup 1 "grp_1" m.topicSeq = some m :=
  ⟨⟨[⟨7, "grp_1", 2, 0, [], 0, 3, "", false⟩, ⟨8, "grp_1", 2, 0, [105], 0, 5, "", false⟩], false, 3⟩,
    by decide, by decide⟩

end NonokaIM
