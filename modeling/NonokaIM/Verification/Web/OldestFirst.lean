import NonokaIM.Verification.Web.MessageOrder

/-! The page that is requested when the user scrolls back: it ends before the first message of the
list. -/

namespace NonokaIM.Web

open GuardedRun SparseOrder ChatMessage ChatStore Option List

/-- If any message has a number, the first one has the smallest. -/
def OldestFirst (messages : List ChatMessage) : Prop := LeastFirst seq messages

def firstUpTo (messages : List ChatMessage) (q : ℕ) : Bool := firstLe seq messages q

variable {messages : List ChatMessage}

theorem oldestFirst_congr {messages' : List ChatMessage} (h : labels messages = labels messages') :
    OldestFirst messages ↔ OldestFirst messages' := by
  have hseqs : seqs messages = seqs messages' := by
    rw [seqs_eq_labels, seqs_eq_labels, h]
  have hhead : ∀ msgs : List ChatMessage,
      msgs.head?.bind seq = (labels msgs).head?.bind Prod.snd := by
    intro msgs
    cases msgs with
    | nil | cons m msgs => rfl
  change (∀ j ∈ seqs messages, (messages.head?.bind seq).any (· ≤ j) = true) ↔
    ∀ j ∈ seqs messages', (messages'.head?.bind seq).any (· ≤ j) = true
  rw [hseqs, hhead, hhead, h]

/-! ## Appending -/

theorem oldestFirst_concat {msg : ChatMessage} (h : OldestFirst messages) :
    OldestFirst (messages ++ [msg]) ↔
      (messages ≠ [] → ∀ q ∈ msg.seq, firstUpTo messages q = true) := by
  by_cases hnil : messages = []
  · subst messages
    refine iff_of_true ?_ fun hne => absurd rfl hne
    intro j hj
    obtain ⟨m, hm, hmj⟩ := mem_filterMap.mp hj
    obtain rfl := mem_singleton.mp hm
    change m.seq.any (· ≤ j) = true
    simp [hmj]
  · rw [forall_prop_of_true hnil]
    exact leastFirst_concat h hnil

theorem oldestFirst_insertBySeq {msg : ChatMessage} (h : OldestFirst messages) :
    OldestFirst (insertBySeq messages msg) ↔
      (lastPending messages = true → ∀ q ∈ msg.seq, firstUpTo messages q = true) := by
  unfold insertBySeq
  cases hseq : msg.seq with
  | none =>
    rw [oldestFirst_concat h, hseq]
    simp
  | some q =>
    cases hlast : messages.getLast? with
    | none =>
      have hnil : messages = [] := getLast?_eq_none_iff.mp hlast
      simp only [bind_none]
      rw [oldestFirst_concat h]
      simp [hnil, lastPending]
    | some last =>
      have hne : messages ≠ [] := getLast?_isSome.mp (by simp [hlast])
      cases hl : last.seq with
      | none =>
        simp only [bind_some, hl]
        rw [oldestFirst_concat h, hseq, forall_prop_of_true hne]
        simp [lastPending, hlast, hl]
      | some k =>
        have hk : k ∈ seqs messages := mem_keys (mem_of_getLast? hlast) hl
        have hpending : lastPending messages = false := by simp [lastPending, hlast, hl]
        simp only [bind_some, hl, hpending, Bool.false_eq_true, false_implies, iff_true]
        split
        · rename_i hkq
          rw [oldestFirst_concat h, hseq]
          intro _ j hj
          obtain rfl := some.inj hj
          exact firstLe_mono (h k hk) hkq
        · exact LeastFirst.insert h hk hseq

/-- An appended message does not put the oldest one out of the first place. -/
def FitsBehind (messages : List ChatMessage) (msg : ChatMessage) : Prop :=
  msg.existsIn messages = true ∨
    (lastPending messages = true → ∀ q ∈ msg.seq, firstUpTo messages q = true)

theorem oldestFirst_addMessage (h : OldestFirst messages) (msg : ChatMessage) :
    OldestFirst (addMessage messages msg) ↔ FitsBehind messages msg := by
  unfold addMessage FitsBehind
  by_cases hexists : msg.existsIn messages
  · simpa [hexists] using h
  · rw [if_neg hexists, or_iff_right hexists]
    exact oldestFirst_insertBySeq h

/-- A patch that numbers a message leaves the oldest one in the first place. -/
def FitsPatch (messages : List ChatMessage) (clientMsgId : String) (p : MessagePatch) : Prop :=
  ∀ q ∈ p.topicSeq.map JsInt.toNumber, match messages.findIdx (·.clientMsgId = clientMsgId) with
    | 0 => ∀ j ∈ seqs messages.tail, q ≤ j
    | i + 1 => i + 1 < messages.length → firstUpTo messages q = true

theorem oldestFirst_patchMessage (h : OldestFirst messages) (clientMsgId : String)
    (p : MessagePatch) :
    OldestFirst (patchMessage messages clientMsgId p) ↔ FitsPatch messages clientMsgId p := by
  unfold FitsPatch
  cases hp : p.topicSeq with
  | none =>
    refine iff_of_true ((oldestFirst_congr (labels_patchMessage hp _ _)).mpr h) ?_
    simp
  | some n =>
    have hseq : ∀ m : ChatMessage, (m.patch p).seq = some n.toNumber := by
      intro m
      simp [patch, seq, hp]
    unfold patchMessage
    simp only [map_some, mem_def, some.injEq, forall_eq']
    cases hidx : messages.findIdx (·.clientMsgId = clientMsgId) with
    | zero =>
      cases messages with
      | nil => exact iff_of_true h fun j hj => absurd hj not_mem_nil
      | cons m messages => exact leastFirst_cons (hseq m)
    | succ i =>
      dsimp only
      by_cases hi : i + 1 < messages.length
      · rw [forall_prop_of_true hi]
        cases messages with
        | nil => exact absurd hi (Nat.not_lt_zero _)
        | cons m messages => exact leastFirst_modify_succ h (Nat.lt_of_succ_lt_succ hi) hseq
      · rw [modify_eq_self (Nat.le_of_not_lt hi)]
        exact iff_of_true h fun hlt => absurd hlt hi

/-- Pending messages are sorted as if they had the number 0: none of them comes to the front. -/
def SortsOldestFirst (messages : List ChatMessage) : Prop :=
  seqs messages ≠ [] →
    ∀ m, messages.find? (·.sortKey = 0) = some m → m.seq.isSome = true

theorem oldestFirst_sortBySeq (messages : List ChatMessage) :
    OldestFirst (sortBySeq messages) ↔ SortsOldestFirst messages := by
  unfold SortsOldestFirst
  by_cases hseqs : seqs messages = []
  · refine iff_of_true ?_ fun hne => absurd hseqs hne
    intro j hj
    have hperm := perm_insertionSort (fun a b : ChatMessage => a.sortKey ≤ b.sortKey) messages
    have hmem : j ∈ seqs messages := (keys_perm hperm).mem_iff.mp hj
    rw [hseqs] at hmem
    exact absurd hmem not_mem_nil
  · rw [forall_prop_of_true hseqs]
    exact leastFirst_sorted Nat.zero_le hseqs

/-! ## Actions -/

namespace ChatStore

def OldestFirst (s : ChatStore) : Prop := ∀ topic, Web.OldestFirst (s.messages topic)

/-- The action leaves the oldest message of every conversation in the first place. -/
def KeepsOldestFirst (s : ChatStore) : StoreAction → Prop
  | .setConversations list =>
    ∀ topic conv, list.reverse.find? (·.topic = topic) = some conv →
      s.conversations topic = none → Web.OldestFirst conv.messages
  | .upsertConversation _ conv => ∀ messages ∈ conv.messages, Web.OldestFirst messages
  | .appendMessage topic msg => FitsBehind (s.messages topic) msg
  | .updateMessageStatus topic clientMsgId patch => FitsPatch (s.messages topic) clientMsgId patch
  | .prependMessages topic msgs _ =>
    SortsOldestFirst (newMsgs (s.messages topic) msgs ++ s.messages topic)
  | _ => True

variable {s : ChatStore}

theorem oldestFirst_setConversations (h : s.OldestFirst) (list : List Conversation) :
    (s.setConversations list).OldestFirst ↔ s.KeepsOldestFirst (.setConversations list) := by
  refine forall_congr' fun topic => ?_
  cases hfind : list.reverse.find? (·.topic = topic) with
  | none =>
    have hsame : (s.setConversations list).messages topic = s.messages topic := by
      simp [messages, ensureConversation, setConversations, hfind]
    rw [hsame]
    exact iff_of_true (h topic) fun conv hconv => by cases hconv
  | some conv =>
    cases hold : s.conversations topic with
    | none =>
      have hnew : (s.setConversations list).messages topic = conv.messages := by
        simp [messages, ensureConversation, setConversations, hfind, hold]
      rw [hnew]
      simp
    | some old =>
      have hsame : (s.setConversations list).messages topic = s.messages topic := by
        simp [messages, ensureConversation, setConversations, hfind, hold]
      rw [hsame]
      exact iff_of_true (h topic) fun _ _ hnone => by cases hnone

theorem oldestFirst_act (h : s.OldestFirst) (a : StoreAction) :
    (s.act a).OldestFirst ↔ s.KeepsOldestFirst a := by
  have hlabels : ∀ s' : ChatStore, SameLabels s'.messages s.messages → s'.OldestFirst :=
    fun s' hs' topic => (oldestFirst_congr (hs' topic)).mpr (h topic)
  cases a with
  | setConversations list => exact oldestFirst_setConversations h list
  | upsertConversation topic conv =>
    rw [act, OldestFirst, messages_upsertConversation, forall_messages_update h]
    cases hmessages : conv.messages with
    | none => simpa [KeepsOldestFirst, hmessages] using h topic
    | some messages => simp [KeepsOldestFirst, hmessages]
  | setActiveTopic topic | markTopicMentioned topic => exact iff_true_intro h
  | appendMessage topic msg =>
    rw [act, OldestFirst, messages_appendMessage, forall_messages_update h]
    exact oldestFirst_addMessage (h topic) msg
  | updateMessageStatus topic clientMsgId patch =>
    rw [act, OldestFirst, messages_updateMessageStatus, forall_messages_update h]
    exact oldestFirst_patchMessage (h topic) clientMsgId patch
  | recallMessage topic topicSeq msgId =>
    refine iff_true_intro (hlabels _ ?_)
    rw [act, messages_recallMessage]
    exact sameLabels_update (.refl _) (labels_map (label_markRecalled _ _) _)
  | setMessagesLoading topic flag =>
    refine iff_true_intro (hlabels _ ?_)
    rw [act, messages_setMessagesLoading]
    exact .refl _
  | prependMessages topic msgs hasMore =>
    rw [act, OldestFirst, messages_prependMessages, forall_messages_update h]
    exact oldestFirst_sortBySeq _
  | markTopicRead topic upToSeq =>
    exact iff_true_intro (hlabels _ (s.sameLabels_markTopicRead topic upToSeq))
  | reset => exact iff_true_intro fun _ => leastFirst_nil

/-! ## Requests -/

variable (s) in
/-- A conversation from which older messages can be loaded. -/
def CanLoadMore (topic : String) (conv : Conversation) : Prop :=
  s.conversations topic = some conv ∧ seqs conv.messages ≠ [] ∧ conv.hasMore = true ∧
    conv.isLoading = false

def pageBeforeOldest (topic : String) (conv : Conversation) : Option PageRequest :=
  (seqs conv.messages).min?.map fun q => { topic, lastSeq := 0, limit := 20, endSeq := q }

theorem loadMore_of_canLoadMore {topic : String} {conv : Conversation} (htopic : topic ≠ "")
    (h : s.CanLoadMore topic conv) :
    s.loadMore (some topic) false =
      if (conv.messages.head?.bind seq).getD 0 = 0 then none
      else
        some
          { topic, lastSeq := 0, limit := 20
            endSeq := (conv.messages.head?.bind seq).getD 0 } := by
  obtain ⟨hconv, -, hmore, hloading⟩ := h
  simp [loadMore, hconv, hmore, hloading]

theorem loadMore_eq_iff {topic : String} {conv : Conversation} (h : s.CanLoadMore topic conv) :
    s.loadMore (some topic) false = pageBeforeOldest topic conv ↔
      topic ≠ "" ∧ 0 ∉ seqs conv.messages ∧ Web.OldestFirst conv.messages := by
  obtain ⟨q, hq⟩ : ∃ q, (seqs conv.messages).min? = some q :=
    isSome_iff_exists.mp (isSome_min?_of_ne_nil h.2.1)
  obtain ⟨hmem, hle⟩ := min?_eq_some_iff.mp hq
  rw [pageBeforeOldest, hq, map_some]
  by_cases htopic : topic = ""
  · subst topic
    refine iff_of_false ?_ fun hne => hne.1 rfl
    intro hnone
    cases hnone
  rw [loadMore_of_canLoadMore htopic h, and_iff_right htopic]
  have hleast : Web.OldestFirst conv.messages ↔
      conv.messages.head?.bind seq = some q := leastFirst_iff_head? hmem hle
  rw [hleast]
  generalize conv.messages.head?.bind seq = first
  constructor
  · intro hrequest
    split at hrequest
    · cases hrequest
    rename_i hpos
    have hgetD : first.getD 0 = q := congrArg PageRequest.endSeq (some.inj hrequest)
    have hzero : 0 ∉ seqs conv.messages := fun h0 => hpos (by
      rw [hgetD]
      exact Nat.le_zero.mp (hle 0 h0))
    cases first with
    | none => exact absurd rfl hpos
    | some n => exact ⟨hzero, congrArg some hgetD⟩
  · rintro ⟨hzero, rfl⟩
    have hpos : q ≠ 0 := fun h0 => hzero (h0 ▸ hmem)
    rw [getD_some, if_neg hpos]

end ChatStore

open ChatStore in
/-- The page before the oldest message is requested exactly when the oldest message is the first
one, and it is the first one at every moment exactly if no numbered message is put behind a pending
first one, no receipt gives another message a smaller number, and no sort moves a pending message to
the front. -/
theorem load_more_iff (actions : List StoreAction) :
    (∀ before, before <+: actions → ∀ topic conv, (run act {} before).CanLoadMore topic conv →
          ((run act {} before).loadMore (some topic) false =
              pageBeforeOldest topic conv ↔
            topic ≠ "" ∧ 0 ∉ seqs conv.messages ∧ Web.OldestFirst conv.messages)) ∧
      ((∀ before, before <+: actions → (run act {} before).OldestFirst) ↔
        Along act KeepsOldestFirst {} actions) := by
  constructor
  · intro before _ topic conv hconv
    exact loadMore_eq_iff hconv
  · have hstart : ({} : ChatStore).OldestFirst := fun _ => leastFirst_nil
    rw [good_always_iff_along, and_iff_right hstart]
    exact along_congr (fun _ a hs => oldestFirst_act hs a) (fun _ _ _ h => h) hstart

def note (clientMsgId : String) (topicSeq : Option ℕ) : ChatMessage where
  clientMsgId := clientMsgId
  topic := "p2p_1_2"
  senderId := .number 1
  content := ""
  timestamp := 0
  topicSeq := topicSeq.map JsInt.number
  status := .sent

def noted (clientMsgId : String) (topicSeq : Option ℕ) : StoreAction :=
  .appendMessage "p2p_1_2" (note clientMsgId topicSeq)

def requested (actions : List StoreAction) : Conversation × Option PageRequest :=
  let s := run act {} actions
  (s.ensureConversation "p2p_1_2", s.loadMore (some "p2p_1_2") false)

def pageBefore (q : ℕ) : PageRequest where
  topic := "p2p_1_2"
  lastSeq := 0
  limit := 20
  endSeq := q

/-- The conversation could load more, and what is requested is not the page before the oldest
message. -/
def Misses (actions : List StoreAction) (request expected : Option PageRequest) : Prop :=
  let conv := (requested actions).1
  conv.hasMore = true ∧ conv.isLoading = false ∧ (requested actions).2 = request ∧
    pageBeforeOldest "p2p_1_2" conv = expected ∧ request ≠ expected
  deriving Decidable

/-- A pending message in front, a late push behind a pending one, and a sort that moves a pending
message to the front. -/
theorem oldest_message_not_first :
    Misses [noted "a" none, noted "b" (some 5)] none (some (pageBefore 5)) ∧
      Misses [noted "b" (some 5), noted "a" none, noted "c" (some 3)]
        (some (pageBefore 5)) (some (pageBefore 3)) ∧
      Misses [noted "b" (some 5), noted "a" none,
          .prependMessages "p2p_1_2" [note "c" (some 4)] true]
        none (some (pageBefore 4)) := by
  decide

end NonokaIM.Web
