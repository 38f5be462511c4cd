import NonokaIM.Model.SdkHistory
import NonokaIM.Verification.Pull.GroupWindow
import NonokaIM.Verification.Sdk.CatchUp

/-! What a conversation holds after its history is loaded. `LoadMore` pulls by `last_seq`, which
goes forward unless that seq is 0. -/

namespace NonokaIM.Sdk

open SeqPages LatestFirst List Sdk.Conversation Message

/-! ## Merging -/

theorem mem_newMessages {existing : List ℕ} {ms : List Message} {q : ℕ} :
    q ∈ (newMessages existing ms).map topicSeq ↔
      q ∉ existing ∧ q ∈ ms.map topicSeq := by
  induction ms generalizing existing with
  | nil => simp [newMessages]
  | cons m ms ih =>
    unfold newMessages
    split
    · rename_i hm
      rw [ih, map_cons, mem_cons]
      constructor
      · intro h
        exact ⟨h.1, .inr h.2⟩
      · rintro ⟨hq, rfl | h⟩
        · exact absurd hm hq
        · exact ⟨hq, h⟩
    · rename_i hm
      rw [map_cons, mem_cons, ih, map_cons, mem_cons, mem_cons]
      by_cases hq : q = m.topicSeq
      · simp [hq, hm]
      · simp [hq]

theorem nodup_newMessages (existing : List ℕ) (ms : List Message) :
    ((newMessages existing ms).map topicSeq).Nodup := by
  induction ms generalizing existing with
  | nil => exact nodup_nil
  | cons m ms ih =>
    unfold newMessages
    split
    · exact ih existing
    rw [map_cons, nodup_cons]
    refine ⟨?_, ih _⟩
    intro h
    exact (mem_newMessages.mp h).1 mem_cons_self

theorem perm_seqs_merge (c : Conversation) (existing : List ℕ) (pulled : List Message) :
    (c.merge existing pulled).seqs.Perm (c.seqs ++ (newMessages existing pulled).map topicSeq) := by
  rw [seqs, seqs, ← map_append]
  exact (perm_insertionSort _ _).map _

variable {c : Conversation}

theorem mem_seqs_merge {existing : List ℕ} (h : ∀ q ∈ existing, q ∈ c.seqs)
    {pulled : List Message} {q : ℕ} :
    q ∈ (c.merge existing pulled).seqs ↔ q ∈ c.seqs ∨ q ∈ pulled.map topicSeq := by
  rw [(perm_seqs_merge c existing pulled).mem_iff, mem_append, mem_newMessages]
  by_cases hq : q ∈ existing
  · simp [hq, h q hq]
  · simp [hq]

theorem nodup_seqs_merge (h : c.seqs.Nodup) (pulled : List Message) :
    (c.merge c.seqs pulled).seqs.Nodup := by
  rw [(perm_seqs_merge c c.seqs pulled).nodup_iff, nodup_append]
  refine ⟨h, nodup_newMessages _ _, ?_⟩
  rintro a ha b hb rfl
  exact (mem_newMessages.mp hb).1 ha

/-! ## The page -/

/-- The seqs of the page: from `last_seq` 0 the latest, else the next rows above it. -/
def pulledSeqs (s : Store) (userID : Int) (topic : String) (lastSeq limit : ℕ) : List ℕ :=
  if lastSeq = 0 then ((visibleDown s userID topic).take limit).reverse
  else
    (SeqPages.after lastSeq
      (doubled (storedTwice s userID topic) (visibleSeqs s userID topic))).take limit

theorem pullMessages_seqs {ctx : PullContext} {canonical : String}
    (h : Authorised ctx c.topic canonical) (hu : ctx.userID ≠ 0) (s : Store) {limit : Int}
    (hlimit : 0 < limit ∧ limit ≤ 100) {lastSeq : ℕ} (hseq : lastSeq < 2 ^ 63) (route : PullRoute) :
    ∃ result, c.pullMessages route ctx s lastSeq limit = .ok result ∧
      result.messages.map topicSeq =
        pulledSeqs s ctx.userID canonical lastSeq limit.toNat := by
  rcases Nat.eq_zero_or_pos lastSeq with rfl | hlast
  · have hreq : Authorised ctx ({ topic := c.topic, lastSeq := 0, limit } : PullRequest).topic
        canonical := h
    have hback : ({ topic := c.topic, lastSeq := 0, limit } : PullRequest).Backward := .inr rfl
    obtain ⟨messages, more, hhistory, hseqs, -⟩ :=
      history_page s ctx.userID (parseTopicType_normalizeTopic h.topic) hseq limit
    have hall : below (cursor 0) (visibleDown s ctx.userID canonical) =
        visibleDown s ctx.userID canonical := by
      simp [below, cursor]
    rw [hall, clampLimit_eq hlimit] at hseqs
    refine ⟨⟨toSDKMessages (messages.map InboxMessage.toPull), more,
      (messages.head?.map InboxMessage.topicSeq).getD 0⟩, ?_, ?_⟩
    · cases route with
      | realtime =>
        simp only [pullMessages, pullMessagesInternal, handlePull_authorised hreq,
          if_pos hback, h.faultless, hhistory]
        rfl
      | http sorter =>
        simp only [pullMessages, pullMessagesInternal, pullMessages_authorised hreq s hu,
          if_pos hback, h.faultless, hhistory]
        rfl
    · rw [map_topicSeq_toSDKMessages, pulledSeqs, if_pos rfl, ← hseqs, map_map]
      rfl
  · obtain ⟨reply, hpull, -, hseqs⟩ :=
      pullMessagesInternal_forward route s h (.inr hu) hlast hseq hlimit
    refine ⟨_, hpull, ?_⟩
    rw [map_topicSeq_toSDKMessages, hseqs, pulledSeqs, if_neg (Nat.ne_of_gt hlast)]

/-! ## Older messages -/

theorem foldl_oldest {ms : List Message} {a m : ℕ} (hm : m = a ∨ m ∈ ms.map topicSeq) (hle : m ≤ a)
    (hmin : ∀ q ∈ ms.map topicSeq, m ≤ q) :
    ms.foldl (fun oldest msg => if msg.topicSeq < oldest then msg.topicSeq else oldest) a = m := by
  induction ms generalizing a with
  | nil => simpa [eq_comm] using hm
  | cons msg ms ih =>
    have hmsg : m ≤ msg.topicSeq := hmin _ (by simp)
    rw [foldl_cons]
    apply ih
    · rw [map_cons, mem_cons] at hm
      rcases hm with rfl | rfl | hrest
      · exact .inl (by rw [if_neg (not_lt.mpr hmsg)])
      · left
        split <;> omega
      · exact .inr hrest
    · split
      · exact hmsg
      · exact hle
    · intro q hq
      exact hmin q (by simp [hq])

theorem beforeOldest_eq {m : ℕ} (hm : m ∈ c.seqs)
    (hmin : ∀ q ∈ c.seqs, m ≤ q) : c.beforeOldest = m - 1 := by
  obtain ⟨topic, messages, lastSeq, unread⟩ := c
  cases messages with
  | nil => cases hm
  | cons msg ms =>
    have hfold := foldl_oldest (mem_cons.mp hm) (hmin _ (by simp [seqs]))
      (fun q hq => hmin q (mem_cons_of_mem _ hq))
    simp only [beforeOldest, hfold]

/-- Besides what it had, the conversation holds the latest messages before a seq, up to the limit,
and no message twice. -/
structure HoldsOlder (s : Store) (userID : Int) (topic : String) (m limit : ℕ)
    (c c' : Conversation) : Prop where
  once : c'.seqs.Nodup
  older : ∀ q, q ∈ c'.seqs ↔
    q ∈ c.seqs ∨ q ∈ ((visibleDown s userID topic).filter (· < m)).take limit

theorem le_of_mem_pulledSeqs {s : Store} {userID : Int} {topic : String} {lastSeq limit q : ℕ}
    (hlast : lastSeq ≠ 0) (hq : q ∈ pulledSeqs s userID topic lastSeq limit) : lastSeq < q := by
  rw [pulledSeqs, if_neg hlast] at hq
  simpa using (mem_filter.mp (mem_of_mem_take hq)).2

theorem exists_older {s : Store} {userID : Int} {topic : String} {m limit q : ℕ}
    (hlimit : 0 < limit) (hq : q ∈ visibleSeqs s userID topic) (hlt : q < m) :
    ∃ older ∈ ((visibleDown s userID topic).filter (· < m)).take limit, older < m := by
  have hmem : q ∈ (visibleDown s userID topic).filter (· < m) := by
    rw [mem_filter, visibleDown, mem_sortDown]
    exact ⟨hq, by simpa using hlt⟩
  cases hbefore : (visibleDown s userID topic).filter (· < m) with
  | nil => simp [hbefore] at hmem
  | cons latest rest =>
    refine ⟨latest, ?_, ?_⟩
    · obtain ⟨n, rfl⟩ := Nat.exists_eq_succ_of_ne_zero (Nat.ne_of_gt hlimit)
      exact mem_cons_self
    · have hlatest : latest ∈ (visibleDown s userID topic).filter (· < m) := by simp [hbefore]
      simpa using (mem_filter.mp hlatest).2

/-- `LoadMore` adds the messages before the oldest one of the conversation exactly if there are
none, and the conversation has all of the page that is pulled instead. -/
theorem older_messages_loaded_iff (route : PullRoute) {ctx : PullContext} {s : Store}
    (hs : Numbered s) {c : Conversation} {canonical : String}
    (hctx : Authorised ctx c.topic canonical) (hu : ctx.userID ≠ 0) (honce : c.seqs.Nodup) {m : ℕ}
    (hm : m ∈ c.seqs) (hmin : ∀ q ∈ c.seqs, m ≤ q) (hseq : m ≤ 2 ^ 63) {limit : Int}
    (hlimit : 1 ≤ limit ∧ limit ≤ 100) :
    ∃ msgs c', c.loadMore route ctx s limit = .ok (msgs, c') ∧
      (HoldsOlder s ctx.userID canonical m limit.toNat c c' ↔
        (∀ q ∈ visibleSeqs s ctx.userID canonical, m ≤ q) ∧
          ∀ q ∈ pulledSeqs s ctx.userID canonical (m - 1) limit.toNat, q ∈ c.seqs) := by
  have hrange : m - 1 < 2 ^ 63 := by omega
  obtain ⟨result, hpull, hseqs⟩ := pullMessages_seqs hctx hu s hlimit hrange route
  rw [← beforeOldest_eq hm hmin] at hpull
  have hload : c.loadMore route ctx s limit =
      .ok (result.messages, c.merge c.seqs result.messages) := by
    simp only [loadMore, if_neg (show ¬ limit ≤ 0 by omega), hpull]
    rfl
  refine ⟨_, _, hload, ?_⟩
  have hmem : ∀ q, q ∈ (c.merge c.seqs result.messages).seqs ↔
      q ∈ c.seqs ∨ q ∈ pulledSeqs s ctx.userID canonical (m - 1) limit.toNat := by
    intro q
    rw [mem_seqs_merge (fun _ hq => hq), hseqs]
  constructor
  · intro h
    have hfirst : ∀ q ∈ visibleSeqs s ctx.userID canonical, m ≤ q := by
      -- the latest message before the oldest one would have to be on a page that starts at it
      intro q hq
      by_contra hlt
      obtain ⟨older, holder, hbefore⟩ :=
        exists_older (show 0 < limit.toNat by omega) hq (not_le.mp hlt)
      have hpos : 0 < q :=
        (numbered_of_visible s ctx.userID hs (by rwa [visibleDown, mem_sortDown])).1
      rcases (hmem older).mp ((h.older older).mpr (.inr holder)) with hin | hin
      · have := hmin older hin
        omega
      · have := le_of_mem_pulledSeqs (by omega) hin
        omega
    refine ⟨hfirst, ?_⟩
    intro q hq
    rcases (h.older q).mp ((hmem q).mpr (.inr hq)) with hin | hin
    · exact hin
    · obtain ⟨hvisible, hlt⟩ := mem_filter.mp (mem_of_mem_take hin)
      rw [visibleDown, mem_sortDown] at hvisible
      have := hfirst q hvisible
      simp only [decide_eq_true_eq] at hlt
      omega
  · rintro ⟨hfirst, hpage⟩
    refine ⟨nodup_seqs_merge honce _, ?_⟩
    have hnone : (visibleDown s ctx.userID canonical).filter (· < m) = [] := by
      rw [filter_eq_nil_iff]
      intro q hq
      rw [visibleDown, mem_sortDown] at hq
      simpa using hfirst q hq
    intro q
    rw [hmem, hnone, take_nil]
    constructor
    · intro hq
      exact .inl (hq.elim id (hpage q))
    · intro hq
      exact .inl (hq.resolve_right (by simp))

def holding (seqs : List ℕ) : Conversation where
  topic := "p2p_2_1"
  messages := toSDKMessages (seqs.map fun seq => (receivedMessage seq).toPull)
  lastSeq := seqs.getLast?.getD 0

theorem nothing_older_loaded :
    ∃ msgs c', (holding [1, 2]).loadMore .realtime { userID := 2 } (received [1, 2]) 5 =
        .ok (msgs, c') ∧
      HoldsOlder (received [1, 2]) 2 "p2p_1_2" 1 5 (holding [1, 2]) c' := by
  have hnumbered : Numbered (received [1, 2]) := by
    constructor <;> decide
  have hlimit : (1 : Int) ≤ 5 ∧ (5 : Int) ≤ 100 := by decide
  obtain ⟨msgs, c', hload, hiff⟩ :=
    older_messages_loaded_iff .realtime hnumbered (c := holding [1, 2]) (m := 1) reader_authorised
      (by decide) (by decide) (by decide) (by decide) (by decide) hlimit
  exact ⟨msgs, c', hload, hiff.mpr (by decide)⟩

/-- Of three messages the last one is held. With a limit of two `LoadMore` gets it again and
nothing else. -/
theorem older_messages_not_loaded :
    2 ∈ ((visibleDown (received [1, 2, 3]) 2 "p2p_1_2").filter (· < 3)).take 2 ∧
    ((holding [3]).loadMore .realtime { userID := 2 } (received [1, 2, 3]) 2).map
      (fun loaded => loaded.2.seqs) = .ok [3] := by
  decide

end NonokaIM.Sdk
