import NonokaIM.Model.SdkConversation
import NonokaIM.Verification.Pull.GroupWindow

/-! What a conversation holds after the pull of offline messages, one page of fifty. -/

namespace NonokaIM.Sdk

open SeqPages List Sdk.Conversation

def Conversation.seqs (c : Conversation) : List ℕ := c.messages.map (·.topicSeq)

/-! ## Appending a message -/

theorem topicSeq_merge_of_eq {dst src : Message} (h : dst.topicSeq = src.topicSeq) :
    (mergeMessageMetadata dst src).topicSeq = dst.topicSeq := by
  simp [mergeMessageMetadata, h]

theorem mergeFirst_some {msg : Message} {ms ms' : List Message}
    (h : mergeFirst (·.topicSeq = msg.topicSeq) msg ms = some ms') :
    msg.topicSeq ∈ ms.map (·.topicSeq) ∧ ms'.map (·.topicSeq) = ms.map (·.topicSeq) := by
  induction ms generalizing ms' with
  | nil => cases h
  | cons m ms ih =>
    by_cases hm : m.topicSeq = msg.topicSeq
    · simp only [mergeFirst, hm, decide_true, if_true, Option.some.injEq] at h
      subst h
      simp [hm, topicSeq_merge_of_eq hm]
    · simp only [mergeFirst, hm, decide_false, Bool.false_eq_true, if_false,
        Option.map_eq_some_iff] at h
      obtain ⟨rest, hrest, rfl⟩ := h
      obtain ⟨hmem, hseqs⟩ := ih hrest
      simp [hmem, hseqs]

variable {userID : Int} {c : Conversation} {s : Store}

theorem mem_seqs_appendMessage {msg : Message} {q : ℕ} (hseq : 0 < msg.topicSeq)
    (hclient : msg.clientMsgID = "") :
    q ∈ (c.appendMessage userID msg).seqs ↔ q ∈ c.seqs ∨ q = msg.topicSeq := by
  have hmerge : mergeDuplicate msg c.messages =
      mergeFirst (·.topicSeq = msg.topicSeq) msg c.messages := by
    simp [mergeDuplicate, hseq, hclient]
  cases hfirst : mergeFirst (·.topicSeq = msg.topicSeq) msg c.messages with
  | none => simp [appendMessage, seqs, hmerge, hfirst, @eq_comm _ q]
  | some ms =>
    obtain ⟨hmem, hseqs⟩ := mergeFirst_some hfirst
    simp only [appendMessage, seqs, hmerge, hfirst, hseqs]
    constructor
    · exact .inl
    · intro h
      rcases h with h | rfl
      · exact h
      · exact hmem

theorem mem_seqs_foldl_appendMessage {msgs : List Message} {q : ℕ}
    (hmsgs : ∀ msg ∈ msgs, 0 < msg.topicSeq ∧ msg.clientMsgID = "") :
    q ∈ (msgs.foldl (appendMessage userID) c).seqs ↔
      q ∈ c.seqs ∨ q ∈ msgs.map (·.topicSeq) := by
  induction msgs generalizing c with
  | nil => simp
  | cons msg msgs ih =>
    obtain ⟨hseq, hclient⟩ := hmsgs msg (by simp)
    rw [foldl_cons, ih (fun m hm => hmsgs m (by simp [hm])),
      mem_seqs_appendMessage hseq hclient, map_cons, mem_cons, or_assoc]

/-! ## One page -/

theorem clientMsgID_of_visible {topic : String} {m : PullMessage}
    (h : m ∈ visibleMessages s userID topic) : m.clientMsgID = "" := by
  unfold visibleMessages mainMessages mentionMessages at h
  split at h
  · rcases mem_append.mp h with h | h
    · obtain ⟨r, _, rfl⟩ := mem_map.mp h
      rfl
    · obtain ⟨r, _, rfl⟩ := mem_map.mp h
      rfl
  · rw [append_nil] at h
    obtain ⟨r, _, rfl⟩ := mem_map.mp h
    rfl

variable {ctx : PullContext}

theorem getElem?_pullOfflineForAll {route : String → PullRoute}
    {convs : List Conversation} {i : ℕ} {c' : Conversation} (hc : convs[i]? = some c)
    (hpull : c.pullOffline (route c.topic) ctx s = .ok c') :
    (pullOfflineForAll route ctx s convs).1[i]? = some c' := by
  induction convs generalizing i with
  | nil => simp at hc
  | cons d convs ih =>
    cases i with
    | zero =>
      obtain rfl : d = c := by simpa using hc
      simp [pullOfflineForAll, hpull]
    | succ i =>
      have hrest := ih (by simpa using hc)
      cases hd : d.pullOffline (route d.topic) ctx s with
      | ok d' | error e => simpa [pullOfflineForAll, hd] using hrest

theorem map_topicSeq_toSDKMessages (msgs : List PullMessage) :
    (toSDKMessages msgs).map (·.topicSeq) = msgs.map PullMessage.topicSeq := by
  simp [toSDKMessages]

/-- A forward page holds the next stored rows on either route. -/
theorem pullMessagesInternal_forward (route : PullRoute) (s : Store)
    {topic canonical : String} (hctx : Authorised ctx topic canonical)
    (hu : route = .realtime ∨ ctx.userID ≠ 0) {lastSeq : ℕ} (hlast : 0 < lastSeq)
    (hseq : lastSeq < 2 ^ 63) {limit : Int} (hlimit : 0 < limit ∧ limit ≤ 100) :
    ∃ reply : PullReply, pullMessagesInternal route ctx s topic lastSeq limit =
        .ok ⟨toSDKMessages reply.messages, reply.hasMore, reply.nextSeq⟩ ∧
      (∀ m ∈ reply.messages, m ∈ visibleMessages s ctx.userID canonical ∧ lastSeq < m.topicSeq) ∧
      reply.messages.map PullMessage.topicSeq = (SeqPages.after lastSeq
        (doubled (storedTwice s ctx.userID canonical)
          (visibleSeqs s ctx.userID canonical))).take limit.toNat := by
  have hseqs := page_seqs s ctx.userID canonical lastSeq hlimit
  cases route with
  | realtime =>
    have hpull := handlePull_forward hctx s hlast hseq limit
    refine ⟨_, by simp only [pullMessagesInternal, hpull]; rfl, ?_, hseqs⟩
    exact fun m hm => mem_page _ _ _ _ hm
  | http sorter =>
    have hreq : Authorised ctx ({ topic, lastSeq, limit } : PullRequest).topic canonical := hctx
    have hpull := pullMessages_authorised hreq s (hu.resolve_left nofun) sorter
    rw [if_neg (by simp [PullRequest.Backward, Nat.ne_of_gt hlast]), fallback_forwardPage_eq
      hctx.faultless (parseTopicType_normalizeTopic hctx.topic) sorter s hseq] at hpull
    refine ⟨_, by simp only [pullMessagesInternal, hpull]; rfl, ?_, ?_⟩
    · exact fun m hm => mem_fallbackPage _ _ _ _ _ hm
    · rw [← hseqs]
      exact fallbackPage_seqs _ _ _ hlimit sorter

theorem pullOffline_spec {route : PullRoute} {canonical : String}
    (hctx : Authorised ctx c.topic canonical) (hu : route = .realtime ∨ ctx.userID ≠ 0)
    (hlast : 0 < c.lastSeq) (hseq : c.lastSeq < 2 ^ 63) :
    ∃ c', c.pullOffline route ctx s = .ok c' ∧
      ∀ q, q ∈ c'.seqs ↔ q ∈ c.seqs ∨
        q ∈ (SeqPages.after c.lastSeq (doubled (storedTwice s ctx.userID canonical)
          (visibleSeqs s ctx.userID canonical))).take 50 := by
  have hlimit : (0 : Int) < 50 ∧ (50 : Int) ≤ 100 := by decide
  obtain ⟨reply, hpull, hvisible, hseqs⟩ :=
    pullMessagesInternal_forward route s hctx hu hlast hseq hlimit
  refine ⟨(toSDKMessages reply.messages).foldl (appendMessage ctx.userID) c, ?_, ?_⟩
  · simp only [pullOffline, hpull]
  · intro q
    rw [mem_seqs_foldl_appendMessage, map_topicSeq_toSDKMessages, hseqs]
    · rfl
    · intro msg hmsg
      obtain ⟨m, hm, rfl⟩ := mem_map.mp hmsg
      obtain ⟨hin, habove⟩ := hvisible m hm
      exact ⟨Nat.lt_trans hlast habove, clientMsgID_of_visible hin⟩

/-- After a pull without errors the conversation has every message of the topic above its
`LastSeq` exactly when each of them is one of the next fifty stored rows or was in the
conversation before. The HTTP service also asks who pulls. -/
theorem catch_up_complete_iff (route : String → PullRoute) {ctx : PullContext} (s : Store)
    {convs : List Conversation} {i : ℕ} {c : Conversation} {canonical : String}
    (hc : convs[i]? = some c) (hctx : Authorised ctx c.topic canonical)
    (hu : route c.topic = .realtime ∨ ctx.userID ≠ 0) (hlast : 1 ≤ c.lastSeq)
    (hseq : c.lastSeq < 2 ^ 63) :
    ∃ c', (pullOfflineForAll route ctx s convs).1[i]? = some c' ∧
      ((∀ m ∈ visibleMessages s ctx.userID canonical, c.lastSeq < m.topicSeq →
          m.topicSeq ∈ c'.seqs) ↔
        ∀ q ∈ visibleSeqs s ctx.userID canonical, c.lastSeq < q →
          q ∈ c.seqs ∨
          q ∈ (SeqPages.after c.lastSeq (doubled (storedTwice s ctx.userID canonical)
            (visibleSeqs s ctx.userID canonical))).take 50) := by
  obtain ⟨c', hpull, hseqs⟩ := pullOffline_spec (s := s) hctx hu hlast hseq
  refine ⟨c', getElem?_pullOfflineForAll hc hpull, ?_⟩
  constructor
  · intro h q hq habove
    obtain ⟨m, hm, rfl⟩ := (mem_visibleSeqs_iff _ _ _).mp hq
    exact (hseqs m.topicSeq).mp (h m hm habove)
  · intro h m hm habove
    refine (hseqs m.topicSeq).mpr (h m.topicSeq ?_ habove)
    exact (mem_visibleSeqs_iff _ _ _).mpr ⟨m, hm, rfl⟩

def readFirst : Conversation where
  topic := "p2p_2_1"
  messages := toSDKMessages [(receivedMessage 1).toPull]
  lastSeq := 1

theorem two_missed_messages_caught_up :
    ∃ c', (pullOfflineForAll (fun _ => .realtime) { userID := 2 } (received [1, 2, 3])
        [readFirst]).1[0]? = some c' ∧
      ∀ m ∈ visibleMessages (received [1, 2, 3]) 2 "p2p_1_2", 1 < m.topicSeq →
        m.topicSeq ∈ c'.seqs := by
  obtain ⟨c', hc', hiff⟩ :=
    catch_up_complete_iff (fun _ => .realtime) (received [1, 2, 3])
      (rfl : [readFirst][0]? = some readFirst) reader_authorised (.inl rfl) (by decide) (by decide)
  exact ⟨c', hc', hiff.mpr (by decide)⟩

/-- Of 51 missed messages the last one is not in the conversation afterwards. -/
theorem last_missed_message_not_pulled :
    (pullOfflineForAll (fun _ => .realtime) { userID := 2 } (received (range' 1 52))
      [readFirst]).2 = [] ∧
    (receivedMessage 52).toPull ∈ visibleMessages (received (range' 1 52)) 2 "p2p_1_2" ∧
    (pullOfflineForAll (fun _ => .realtime) { userID := 2 } (received (range' 1 52))
      [readFirst]).1.map seqs = [range' 1 51] := by
  decide +kernel

end NonokaIM.Sdk
