import NonokaIM.Verification.Worker.Traces

/-! # The copies of a message

Every attempt numbers the message anew, so copies agree as long as no attempt adds rows to those of
an earlier one. -/

namespace NonokaIM

open DocumentStore List Collection Function Copy

def Store.copies (s : Store) : List Copy :=
  s.inboxes.rows.map InboxMessage.copy ++ s.messages.rows.map StoredMessage.copy ++
    s.mentionInboxes.rows.map MentionMessage.copy

def Copy.Same (x y : Copy) : Prop :=
  x.topic = y.topic ∧ x.senderID = y.senderID ∧ x.clientMsgID = y.clientMsgID ∧ x.clientMsgID ≠ ""
  deriving Decidable

def Copy.Agree (x y : Copy) : Prop := x.Same y → x.msgID = y.msgID ∧ x.topicSeq = y.topicSeq
  deriving Decidable

def CopiesAgree (s : Store) : Prop := ∀ x ∈ s.copies, ∀ y ∈ s.copies, x.Agree y
  deriving Decidable

theorem Copy.Same.symm {x y : Copy} (h : x.Same y) : y.Same x :=
  ⟨h.1.symm, h.2.1.symm, h.2.2.1.symm, h.2.2.1 ▸ h.2.2.2⟩

theorem Copy.Agree.symm {x y : Copy} (h : x.Agree y) : y.Agree x := by
  intro hyx
  obtain ⟨hid, hseq⟩ := h hyx.symm
  exact ⟨hid.symm, hseq.symm⟩

variable {s : Store}

theorem mem_copies {x : Copy} :
    x ∈ s.copies ↔ (∃ r ∈ s.inboxes.rows, r.copy = x) ∨ (∃ r ∈ s.messages.rows, r.copy = x) ∨
      ∃ r ∈ s.mentionInboxes.rows, r.copy = x := by
  simp only [Store.copies, mem_append, mem_map, or_assoc]

theorem copiesAgree_of_new {s' : Store} {p : Copy → Prop} (h : CopiesAgree s)
    (hi : ∀ r ∈ s'.inboxes.rows, r ∈ s.inboxes.rows ∨ p r.copy)
    (hm : ∀ r ∈ s'.messages.rows, r ∈ s.messages.rows ∨ p r.copy)
    (hmention : ∀ r ∈ s'.mentionInboxes.rows, r ∈ s.mentionInboxes.rows ∨ p r.copy)
    (hold : ∀ x, p x → ∀ y ∈ s.copies, y.Agree x) (hnew : ∀ x y, p x → p y → x.Agree y) :
    CopiesAgree s' := by
  have hmem : ∀ x ∈ s'.copies, x ∈ s.copies ∨ p x := by
    intro x hx
    rw [mem_copies] at hx ⊢
    rcases hx with ⟨r, hr, rfl⟩ | ⟨r, hr, rfl⟩ | ⟨r, hr, rfl⟩
    · exact (hi r hr).imp_left fun hr => .inl ⟨r, hr, rfl⟩
    · exact (hm r hr).imp_left fun hr => .inr (.inl ⟨r, hr, rfl⟩)
    · exact (hmention r hr).imp_left fun hr => .inr (.inr ⟨r, hr, rfl⟩)
  intro x hx y hy
  rcases hmem x hx with hx | hx
  · rcases hmem y hy with hy | hy
    · exact h x hx y hy
    · exact hold y hy x hx
  · rcases hmem y hy with hy | hy
    · exact (hold x hx y hy).symm
    · exact hnew x y hx hy

def KeyTaken (s : Store) (senderID : Int) (clientMsgID : String) : Prop :=
  ∃ m ∈ s.messages.rows, m.senderID = senderID ∧ m.clientMsgID = clientMsgID

theorem KeyTaken.mono {s' : Store} (hsub : s.messages.rows ⊆ s'.messages.rows) {u : Int}
    {id : String} (h : KeyTaken s u id) : KeyTaken s' u id := by
  obtain ⟨m, hm, hkey⟩ := h
  exact ⟨m, hsub hm, hkey⟩

theorem blocked_of_keyTaken {r : StoredMessage} (hid : r.clientMsgID ≠ "")
    (h : KeyTaken s r.senderID r.clientMsgID) : Blocked messageKeys s.messages.rows r := by
  obtain ⟨m, hm, hsender, hclient⟩ := h
  exact ⟨m, hm, conflict_messageKeys.mpr (.inr ⟨hsender, hclient, hid⟩)⟩

namespace Cluster

variable {ι : Type} {cfg : ι → WorkerConfig} {c c' : Cluster ι} {e : ClusterEvent ι}

/-! ## The runs that keep copies together -/

/-- Before a P2P message is saved outside of a transaction: if the message has a row already,
both its users have a row under its client id. -/
def RowsTogether (s : Store) (msg : UpstreamMessage) : Prop :=
  msg.clientMsgID ≠ "" →
    (∀ r ∈ s.inboxes.rows, ¬ (r.topic = msg.topic ∧ r.senderID = msg.senderID ∧
      r.clientMsgID = msg.clientMsgID)) ∨
    ∀ uid1 uid2, extractUserIDsFromP2PTopic msg.topic = .ok (uid1, uid2) →
      ∀ u ∈ [receiverOf msg uid1 uid2, msg.senderID],
        ∃ r ∈ s.inboxes.rows, r.userID = u ∧ r.clientMsgID = msg.clientMsgID

/-- The rows of the message have the ids of this attempt, or all mentioned users have a mention
under its client id. -/
def MentionsTogether (s : Store) (a : Attempt ι) : Prop :=
  a.msg.clientMsgID ≠ "" →
    (∀ x ∈ s.copies, x.Agree a.copy) ∨
    ∀ u ∈ a.msg.mentionedUserIDs,
      ∃ r ∈ s.mentionInboxes.rows, r.userID = u ∧ r.clientMsgID = a.msg.clientMsgID

def KeepsTogether (cfg : ι → WorkerConfig) (c : Cluster ι) : ClusterEvent ι → Prop
  | .save h _ _ _ => ∀ a, c.attempts[h]? = some a → c.stage h = .numbered →
      parseTopicType a.msg.topic = .p2p → (cfg a.process).agentPublisher = false →
      RowsTogether c.world.store a.msg
  | .finish h _ _ _ => ∀ a recipientIDs isDuplicate, c.attempts[h]? = some a →
      c.stage h = .saved recipientIDs isDuplicate → isGroup a.msg = true →
      MentionsTogether c.world.store a
  | _ => True

/-- The copies agree; a message with mentions, or about to get them, has its client id taken. -/
structure Together (c : Cluster ι) : Prop where
  traced : Traced c
  agree : CopiesAgree c.world.store
  mentions : ∀ r ∈ c.world.store.mentionInboxes.rows, r.clientMsgID ≠ "" →
    KeyTaken c.world.store r.senderID r.clientMsgID
  saved : ∀ (h : ℕ) a recipientIDs isDuplicate, c.attempts[h]? = some a →
    c.stage h = .saved recipientIDs isDuplicate → isGroup a.msg = true →
    a.msg.clientMsgID ≠ "" → KeyTaken c.world.store a.msg.senderID a.msg.clientMsgID

theorem together_init : Together (init ι) where
  traced := traced_init
  agree := by simp [CopiesAgree, Store.copies, init]
  mentions := by simp [init]
  saved := by simp [init]

theorem Together.copy_cases (ht : Together c) {x y : Copy} (hy : y ∈ c.world.store.copies)
    (hsame : y.Same x) :
    (∃ r ∈ c.world.store.inboxes.rows, r.copy = y ∧ parseTopicType x.topic ≠ .group) ∨
    (parseTopicType x.topic = .group ∧
      KeyTaken c.world.store x.senderID x.clientMsgID) := by
  obtain ⟨htopic, hsender, hclient, hid⟩ := hsame
  rcases mem_copies.mp hy with ⟨r, hr, rfl⟩ | ⟨r, hr, rfl⟩ | ⟨r, hr, rfl⟩
  · refine .inl ⟨r, hr, rfl, ?_⟩
    obtain ⟨k, a, _, ⟨hcopy, haddr⟩, _⟩ := ht.traced.rows.inboxes r hr
    rw [← htopic, hcopy]
    intro hgroup
    simp only [Attempt.copy, UpstreamMessage.copy] at hgroup
    simp only [Addressed, hgroup] at haddr
  · obtain ⟨k, a, _, ⟨hcopy, hgroup⟩, _⟩ := ht.traced.rows.messages r hr
    refine .inr ⟨?_, r, hr, hsender, hclient⟩
    rw [← htopic, hcopy]
    exact isGroup_iff.mp hgroup
  · obtain ⟨k, a, _, hcopy, hgroup⟩ := ht.traced.rows.mentions r hr
    refine .inr ⟨?_, ?_⟩
    · rw [← htopic, hcopy]
      exact isGroup_iff.mp hgroup
    · have hkey := ht.mentions r hr hid
      rw [← hsender, ← hclient]
      exact hkey

theorem Together.agree_of_free (ht : Together c) {r : StoredMessage}
    (hfree : ¬ Blocked messageKeys c.world.store.messages.rows r)
    (hgroup : parseTopicType r.topic = .group) :
    ∀ y ∈ c.world.store.copies, y.Agree r.copy := by
  intro y hy hsame
  rcases ht.copy_cases hy hsame with ⟨_, _, _, hne⟩ | ⟨_, hkey⟩
  · exact absurd hgroup hne
  · have hid : r.clientMsgID ≠ "" := hsame.symm.2.2.2
    exact absurd (blocked_of_keyTaken hid hkey) hfree

/-! ## Saves -/

variable {now msgID : Int} {a : Attempt ι} {s : Store} {msg : UpstreamMessage} {r : InboxMessage}
variable {topicSeq : ℕ} {w : WorkerConfig} {fault : SaveFault} {tx : TxFault} {dup : Bool}
variable {us : List Int}

/-- The ids of an attempt, where every copy of the message has them. -/
def IsCopy (s : Store) (a : Attempt ι) (x : Copy) : Prop :=
  x = a.copy ∧ ∀ y ∈ s.copies, y.Agree a.copy

theorem copiesAgree_of_isCopy {s' : Store} (h : CopiesAgree s)
    (hi : ∀ r ∈ s'.inboxes.rows, r ∈ s.inboxes.rows ∨ IsCopy s a r.copy)
    (hm : ∀ r ∈ s'.messages.rows, r ∈ s.messages.rows ∨ IsCopy s a r.copy)
    (hmention : ∀ r ∈ s'.mentionInboxes.rows, r ∈ s.mentionInboxes.rows ∨ IsCopy s a r.copy) :
    CopiesAgree s' := by
  apply copiesAgree_of_new h hi hm hmention
  · rintro x ⟨hx, hall⟩ y hy
    rw [hx]
    exact hall y hy
  · rintro x y ⟨hx, _⟩ ⟨hy, _⟩ _
    rw [hx, hy]
    exact ⟨rfl, rfl⟩

theorem Together.agree_save (ht : Together c) {s' : Store}
    (heff : SaveEffect now a.msg a.msgID a.topicSeq c.world.store s')
    (hi : ∀ r ∈ s'.inboxes.rows, r ∉ c.world.store.inboxes.rows →
      ∀ y ∈ c.world.store.copies, y.Agree a.copy) : CopiesAgree s' := by
  apply copiesAgree_of_isCopy ht.agree
  · intro r hr
    by_cases hold : r ∈ c.world.store.inboxes.rows
    · exact .inl hold
    · exact (heff.inboxes_new r hr).imp_right fun hnew => ⟨hnew.1, hi r hr hold⟩
  · intro r hr
    rcases heff.messages_new r hr with hold | ⟨hgroup, rfl, hfree⟩
    · exact .inl hold
    · exact .inr ⟨rfl, ht.agree_of_free hfree (isGroup_iff.mp hgroup)⟩
  · intro r hr
    rw [heff.mentionInboxes] at hr
    exact .inl hr

theorem receiverOf_congr {msg' : UpstreamMessage} (h : msg.senderID = msg'.senderID)
    (uid1 uid2 : Int) : receiverOf msg uid1 uid2 = receiverOf msg' uid1 uid2 := by
  simp only [receiverOf, h]

theorem Together.addressed_of_copy (ht : Together c) {y : Copy} (hy : y ∈ c.world.store.copies)
    (hsame : y.Same a.copy) (hne : parseTopicType a.msg.topic ≠ .group) :
    ∃ r ∈ c.world.store.inboxes.rows, r.topic = a.msg.topic ∧ r.senderID = a.msg.senderID ∧
      r.clientMsgID = a.msg.clientMsgID ∧ Addressed a.msg r.userID := by
  rcases ht.copy_cases hy hsame with ⟨r, hr, rfl, _⟩ | ⟨hgroup, _⟩
  · obtain ⟨htopic, hsender, hclient, _⟩ := hsame
    obtain ⟨k, b, _, ⟨hcopy, haddr⟩, _⟩ := ht.traced.rows.inboxes r hr
    have hbt : b.msg.topic = a.msg.topic := (congrArg topic hcopy).symm.trans htopic
    have hbs : b.msg.senderID = a.msg.senderID := (congrArg senderID hcopy).symm.trans hsender
    refine ⟨r, hr, htopic, hsender, hclient, ?_⟩
    simp only [Addressed, hbt] at haddr ⊢
    split at haddr
    · obtain ⟨uid1, uid2, hx, hu⟩ := haddr
      rw [receiverOf_congr hbs, hbs] at hu
      exact ⟨uid1, uid2, hx, hu⟩
    · exact haddr
    · exact haddr
  · exact absurd hgroup hne

theorem blocked_of_client {rows : List InboxMessage} {x : InboxMessage} (hx : x ∈ rows)
    (hu : x.userID = r.userID) (hclient : x.clientMsgID = r.clientMsgID)
    (hid : r.clientMsgID ≠ "") : Blocked inboxKeys rows r :=
  ⟨x, hx, conflict_inboxKeys.mpr ⟨hu, .inr ⟨hclient, hid⟩⟩⟩

theorem mem_p2pRows_of_addressed {uid1 uid2 u : Int} (ht : parseTopicType msg.topic = .p2p)
    (hx : extractUserIDsFromP2PTopic msg.topic = .ok (uid1, uid2)) (haddr : Addressed msg u) :
    ∃ r ∈ p2pRows now msg msgID topicSeq (receiverOf msg uid1 uid2), r.userID = u ∧
      r.clientMsgID = msg.clientMsgID := by
  simp only [Addressed, ht] at haddr
  obtain ⟨v1, v2, hv, hu⟩ := haddr
  rw [hx] at hv
  obtain ⟨rfl, rfl⟩ := hv
  rcases hu with rfl | rfl
  · exact ⟨_, mem_cons_self, rfl, rfl⟩
  · exact ⟨_, mem_cons_of_mem _ mem_cons_self, rfl, rfl⟩

theorem free_of_new_in_transaction {uid1 uid2 : Int} (hw : w.agentPublisher = true)
    (ht : parseTopicType msg.topic = .p2p)
    (hx : extractUserIDsFromP2PTopic msg.topic = .ok (uid1, uid2))
    (hr : r ∈ (NonokaIM.save w now msg msgID topicSeq fault tx s).2.inboxes.rows)
    (hnew : r ∉ s.inboxes.rows) :
    ∀ x ∈ p2pRows now msg msgID topicSeq (receiverOf msg uid1 uid2),
      ¬ Blocked inboxKeys s.inboxes.rows x := by
  simp only [NonokaIM.save, ht, hw, if_true] at hr
  rcases saveP2PMessageWithAgentEvent_cases (newMessageEvent w.sha256Hex msgID msg) tx with
    ⟨_, hs, _⟩ | ⟨res, _, hres, hfresh, _, hs, _⟩
  · rw [hs] at hr
    exact absurd hr hnew
  · have hany := (saveP2PMessage_ok hx hres).2
    rw [hany] at hfresh
    exact (fresh_p2pRows_iff.mp hfresh).2

theorem Together.agree_of_new_inbox (ht : Together c)
    (hg : parseTopicType a.msg.topic = .p2p → w.agentPublisher = false →
      RowsTogether c.world.store a.msg)
    (hr : r ∈ (NonokaIM.save w now a.msg a.msgID a.topicSeq fault tx c.world.store).2.inboxes.rows)
    (hnew : r ∉ c.world.store.inboxes.rows) : ∀ y ∈ c.world.store.copies, y.Agree a.copy := by
  intro y hy hsame
  exfalso
  have hid : a.msg.clientMsgID ≠ "" := hsame.symm.2.2.2
  rcases save_effect.inboxes_new r hr with hold | ⟨hcopy, haddr, hfree⟩
  · exact hnew hold
  have hrid : r.clientMsgID = a.msg.clientMsgID := congrArg clientMsgID hcopy
  cases htopic : parseTopicType a.msg.topic with
  | p2p =>
    obtain ⟨x, hx, hxt, hxs, hxc, hxaddr⟩ := ht.addressed_of_copy hy hsame (by simp [htopic])
    cases hw : w.agentPublisher with
    | false =>
      rcases hg htopic hw hid with hnone | hboth
      · exact hnone x hx ⟨hxt, hxs, hxc⟩
      · simp only [Addressed, htopic] at haddr
        obtain ⟨uid1, uid2, hext, hu⟩ := haddr
        obtain ⟨z, hz, hzu, hzc⟩ := hboth uid1 uid2 hext r.userID (by simpa using hu)
        exact hfree (blocked_of_client hz hzu (hzc.trans hrid.symm) (hrid ▸ hid))
    | true =>
      cases hext : extractUserIDsFromP2PTopic a.msg.topic with
      | error err =>
        simp only [Addressed, htopic, hext] at haddr
        obtain ⟨_, _, hbad, _⟩ := haddr
        cases hbad
      | ok uids =>
        have hall := free_of_new_in_transaction hw htopic hext hr hnew
        obtain ⟨z, hz, hzu, hzc⟩ := mem_p2pRows_of_addressed htopic hext hxaddr
        exact hall z hz (blocked_of_client hx hzu.symm (hxc.trans hzc.symm) (hzc ▸ hid))
  | system =>
    obtain ⟨x, hx, _, _, hxc, hxaddr⟩ := ht.addressed_of_copy hy hsame (by simp [htopic])
    simp only [Addressed, htopic] at haddr hxaddr
    have hu : x.userID = r.userID := Except.ok.inj (hxaddr.symm.trans haddr)
    exact hfree (blocked_of_client hx hu (hxc.trans hrid.symm) (hrid ▸ hid))
  | group | unknown => simp only [Addressed, htopic] at haddr

/-! ## Client ids of saved group messages -/

theorem keyTaken_of_holdsGroup (h : HoldsGroup s msg) :
    KeyTaken s msg.senderID msg.clientMsgID := by
  obtain ⟨m, hm, _, hsender, hclient⟩ := h
  exact ⟨m, hm, hsender, hclient⟩

theorem keyTaken_or_seq_of_blocked
    (h : Blocked messageKeys s.messages.rows (newStoredMessage now msg msgID topicSeq)) :
    KeyTaken s msg.senderID msg.clientMsgID ∨
      ∃ x ∈ s.messages.rows, x.topic = msg.topic ∧ x.topicSeq = topicSeq := by
  obtain ⟨x, hx, hc⟩ := h
  rcases conflict_messageKeys.mp hc with hseq | ⟨hsender, hclient, _⟩
  · exact .inr ⟨x, hx, hseq⟩
  · exact .inl ⟨x, hx, hsender, hclient⟩

variable {h : ℕ}

theorem keyTaken_save (ht : Traced c) (ha : c.attempts[h]? = some a) (hun : c.Unwritten h)
    (hgroup : isGroup a.msg = true) {r : List Int × Bool}
    (hr : (NonokaIM.save w now a.msg a.msgID a.topicSeq fault tx c.world.store).1 = .ok r) :
    KeyTaken (NonokaIM.save w now a.msg a.msgID a.topicSeq fault tx c.world.store).2
      a.msg.senderID a.msg.clientMsgID := by
  have htopic := isGroup_iff.mp hgroup
  have hblocked : Blocked messageKeys c.world.store.messages.rows
      (newStoredMessage now a.msg a.msgID a.topicSeq) →
      KeyTaken (NonokaIM.save w now a.msg a.msgID a.topicSeq fault tx c.world.store).2
        a.msg.senderID a.msg.clientMsgID := by
    intro hb
    rcases keyTaken_or_seq_of_blocked hb with hkey | ⟨x, hx, hseq⟩
    · exact hkey.mono save_effect.messages_subset
    · exact absurd hseq ((ht.seq_free ha hun).2 x hx)
  simp only [NonokaIM.save, htopic] at hr hblocked ⊢
  obtain ⟨dup, hdup, _⟩ := map_eq_ok.mp (wrapErr_eq_ok.mp hr)
  cases hw : w.agentPublisher with
  | false =>
    simp only [hw, Bool.false_eq_true, if_false] at hdup hblocked ⊢
    rcases saveGroupMessage_ok hdup with ⟨_, hholds⟩ | ⟨_, hb⟩
    · exact keyTaken_of_holdsGroup hholds
    · exact hblocked hb
  | true =>
    simp only [hw, if_true] at hdup hblocked ⊢
    rcases saveGroupMessageWithAgentEvent_cases (newMessageEvent w.sha256Hex a.msgID a.msg) tx with
      ⟨_, _, hroll⟩ | ⟨d, _, hd, (hfresh : d = false), _, hs, _⟩
    · obtain ⟨hd, (htrue : dup = true)⟩ := hroll dup hdup
      rcases saveGroupMessage_ok hd with ⟨hfalse, _⟩ | ⟨_, hb⟩
      · rw [htrue] at hfalse
        cases hfalse
      · exact hblocked hb
    · rcases saveGroupMessage_ok hd with ⟨_, hholds⟩ | ⟨htrue, _⟩
      · rw [hs]
        exact keyTaken_of_holdsGroup hholds
      · rw [hfresh] at htrue
        cases htrue

theorem Traced.copy_of_seq (ht : Traced c) (ha : c.attempts[h]? = some a)
    {x : StoredMessage} (hx : x ∈ c.world.store.messages.rows) (htopic : x.topic = a.msg.topic)
    (hseq : x.topicSeq = a.topicSeq) : x.copy = a.copy := by
  obtain ⟨k, b, hb, ⟨hcopy, _⟩, _⟩ := ht.rows.messages x hx
  have hbt : b.msg.topic = a.msg.topic := (congrArg topic hcopy).symm.trans htopic
  have hbs : b.topicSeq = a.topicSeq := (congrArg topicSeq hcopy).symm.trans hseq
  obtain rfl := ht.numbering.eq_of_seq hb ha hbt hbs
  rw [ha] at hb
  obtain rfl := Option.some.inj hb
  exact hcopy

theorem keyTaken_saveOne (ht : Traced c) (ha : c.attempts[h]? = some a)
    (hr : (saveGroupMessage now a.msg a.msgID a.topicSeq fault c.world.store).1 = .ok dup) :
    KeyTaken (saveGroupMessage now a.msg a.msgID a.topicSeq fault c.world.store).2
      a.msg.senderID a.msg.clientMsgID := by
  rcases saveGroupMessage_ok hr with ⟨_, hholds⟩ | ⟨_, hb⟩
  · exact keyTaken_of_holdsGroup hholds
  · apply KeyTaken.mono subset_saveGroupMessage
    rcases keyTaken_or_seq_of_blocked hb with hkey | ⟨x, hx, htopic, hseq⟩
    · exact hkey
    · have hcopy := ht.copy_of_seq ha hx htopic hseq
      exact ⟨x, hx, congrArg senderID hcopy, congrArg clientMsgID hcopy⟩

theorem mem_items_of_mem {hs : List ℕ} (hh : h ∈ hs) (ha : c.attempts[h]? = some a) :
    a.item ∈ c.items hs :=
  mem_filterMap.mpr ⟨h, hh, by rw [ha]; rfl⟩

theorem keyTaken_flush (ht : Traced c) {i : ι} (hv : batchVerdict (c.items (c.pending i)).length
      (saveGroupMessagesBatch now (c.items (c.pending i)) fault c.world.store).1 = some dup)
    (hh : h ∈ c.pending i) (ha : c.attempts[h]? = some a) :
    KeyTaken (saveGroupMessagesBatch now (c.items (c.pending i)) fault c.world.store).2
      a.msg.senderID a.msg.clientMsgID := by
  have hrows : (saveGroupMessagesBatch now (c.items (c.pending i)) fault c.world.store).2.messages =
      (c.world.store.messages.insertAll ((c.items (c.pending i)).map (GroupBatchItem.row now))).1 := by
    rw [saveGroupMessagesBatch_store]
    exact congrArg Prod.fst (batchVerdict_spec hv).1
  have hitem : a.item.row now ∈ (c.items (c.pending i)).map (GroupBatchItem.row now) :=
    mem_map.mpr ⟨a.item, mem_items_of_mem hh ha, rfl⟩
  have hcases := stored_or_blocked_insertAll (c := c.world.store.messages) hitem
  rw [← hrows] at hcases
  rcases hcases with hmem | hb
  · exact ⟨_, hmem, rfl, rfl⟩
  · rcases keyTaken_or_seq_of_blocked hb with hkey | ⟨x, hx, htopic, hseq⟩
    · exact hkey
    · refine ⟨x, hx, ?_⟩
      rw [hrows] at hx
      rcases mem_insertMany hx with hold | ⟨hnew, _⟩
      · have hfree := (ht.seq_free ha (.inr ⟨i, hh⟩)).2 x hold
        exact absurd ⟨htopic, hseq⟩ hfree
      · obtain ⟨item, hitem, rfl⟩ := mem_map.mp hnew
        obtain ⟨k, _, b, hb, rfl⟩ := mem_items hitem
        obtain rfl := ht.numbering.eq_of_seq hb ha htopic hseq
        rw [ha] at hb
        obtain rfl := Option.some.inj hb
        exact ⟨rfl, rfl⟩

/-! ## Every step keeps the copies together -/

theorem Together.advance (ht : Together c) (htr : Traced c') (hagree : CopiesAgree c'.world.store)
    (hsub : c.world.store.messages.rows ⊆ c'.world.store.messages.rows)
    (hmention : c'.world.store.mentionInboxes = c.world.store.mentionInboxes)
    (hsaved : ∀ (h : ℕ) a recipientIDs isDuplicate, c'.attempts[h]? = some a →
      c'.stage h = .saved recipientIDs isDuplicate →
      (c.attempts[h]? = some a ∧ c.stage h = .saved recipientIDs isDuplicate) ∨
      (isGroup a.msg = true →
        KeyTaken c'.world.store a.msg.senderID a.msg.clientMsgID)) : Together c' where
  traced := htr
  agree := hagree
  mentions := by
    intro r hr hid
    rw [hmention] at hr
    exact (ht.mentions r hr hid).mono hsub
  saved := by
    intro h a recipientIDs isDuplicate ha hstage hgroup hid
    rcases hsaved h a _ _ ha hstage with ⟨ha, hstage⟩ | hnew
    · exact (ht.saved h a _ _ ha hstage hgroup hid).mono hsub
    · exact hnew hgroup

theorem Together.of_stage (ht : Together c) (htr : Traced c')
    (hstore : c'.world.store = c.world.store)
    (hsaved : ∀ (h : ℕ) a recipientIDs isDuplicate, c'.attempts[h]? = some a →
      c'.stage h = .saved recipientIDs isDuplicate →
      c.attempts[h]? = some a ∧ c.stage h = .saved recipientIDs isDuplicate) : Together c' := by
  refine ht.advance htr ?_ ?_ ?_ fun h a us dup ha hs => .inl (hsaved h a us dup ha hs)
  · rw [hstore]
    exact ht.agree
  · rw [hstore]
    exact List.Subset.refl _
  · rw [hstore]

theorem saved_of_update {stage : ℕ → Stage} {k : ℕ} {st : Stage}
    (hk : update stage h st k = .saved us dup) :
    (k = h ∧ st = .saved us dup) ∨ stage k = .saved us dup := by
  by_cases hkh : k = h
  · subst k
    rw [update_self] at hk
    exact .inl ⟨rfl, hk⟩
  · rw [update_of_ne hkh] at hk
    exact .inr hk

theorem saved_of_update_ne {stage : ℕ → Stage} {k : ℕ} {st : Stage}
    (hk : update stage h st k = .saved us dup) (hst : st ≠ .saved us dup) :
    stage k = .saved us dup := by
  rcases saved_of_update hk with ⟨_, hbad⟩ | hold
  · exact absurd hbad hst
  · exact hold

theorem saved_of_accept {b : Attempt ι} {k : ℕ} (hk : (c.attempts ++ [a])[k]? = some b)
    (hks : update c.stage c.attempts.length .numbered k = .saved us dup) :
    c.attempts[k]? = some b ∧ c.stage k = .saved us dup := by
  refine ⟨?_, saved_of_update_ne hks nofun⟩
  have hne : k ≠ c.attempts.length := by
    intro hkl
    rw [hkl, update_self] at hks
    cases hks
  have hbound := (List.getElem?_eq_some_iff.mp hk).1
  rw [length_append, length_singleton] at hbound
  rwa [getElem?_append_left (by omega)] at hk

theorem ok_of_ofResult {r : Except String (List Int × Bool)}
    (h : Stage.ofResult r = .saved us dup) : r = .ok (us, dup) := by
  rcases r with err | ⟨us', dup'⟩
  · cases h
  · simpa [Stage.ofResult] using h

theorem Together.agree_batch (ht : Together c) (i : ι) (now : Int) (fault : SaveFault) :
    CopiesAgree (saveGroupMessagesBatch now (c.items (c.pending i)) fault c.world.store).2 := by
  have hstore : (saveGroupMessagesBatch now (c.items (c.pending i)) fault c.world.store).2 = _ :=
    saveGroupMessagesBatch_store
  have hgroup : ∀ item ∈ c.items (c.pending i), parseTopicType item.msg.topic = .group := by
    intro item hitem
    obtain ⟨k, hk, a, ha, rfl⟩ := mem_items hitem
    obtain ⟨_, b, hb, _, hg⟩ := ht.traced.queues.pending i k hk
    rw [ha] at hb
    obtain rfl := Option.some.inj hb
    exact isGroup_iff.mp hg
  refine copiesAgree_of_new (p := fun x => ∃ r ∈ (saveGroupMessagesBatch now
    (c.items (c.pending i)) fault c.world.store).2.messages.rows, r.copy = x ∧
    parseTopicType r.topic = .group ∧ ¬ Blocked messageKeys c.world.store.messages.rows r)
    ht.agree ?_ ?_ ?_ ?_ ?_
  · intro r hr
    rw [hstore] at hr
    exact .inl hr
  · intro r hr
    have hr' := hr
    rw [hstore] at hr'
    rcases mem_insertMany hr' with hold | ⟨hnew, hfree⟩
    · exact .inl hold
    · obtain ⟨item, hitem, rfl⟩ := mem_map.mp hnew
      exact .inr ⟨_, hr, rfl, hgroup item hitem, hfree⟩
  · intro r hr
    rw [hstore] at hr
    exact .inl hr
  · rintro x ⟨r, _, hx, hg, hfree⟩ y hy
    rw [← hx]
    exact ht.agree_of_free hfree hg y hy
  · rintro x y ⟨r, hr, hx, _⟩ ⟨q, hq, hy, _⟩
    subst x
    subst y
    intro hsame
    obtain ⟨_, hsender, hclient, hid⟩ := hsame
    have hc : Conflict messageKeys r q :=
      conflict_messageKeys.mpr (.inr ⟨hsender, hclient, fun hq => hid (hclient.trans hq)⟩)
    rw [eq_of_conflict _ hr hq hc]
    exact ⟨rfl, rfl⟩

theorem Together.agree_mentions (ht : Together c)
    (hg : isGroup a.msg = true → MentionsTogether c.world.store a) (now : Int) (fault : SaveFault)
    {s' : Store} (hi : s'.inboxes = c.world.store.inboxes)
    (hm : s'.messages = c.world.store.messages) (hmention : s'.mentionInboxes =
      (saveMentions now a.msg a.msgID a.topicSeq fault c.world.store).mentionInboxes) :
    CopiesAgree s' := by
  apply copiesAgree_of_isCopy (a := a) ht.agree
  · intro r hr
    rw [hi] at hr
    exact .inl hr
  · intro r hr
    rw [hm] at hr
    exact .inl hr
  · intro r hr
    rw [hmention] at hr
    rcases mem_saveMentions hr with hold | ⟨hgroup, ⟨u, hu, rfl⟩, hfree⟩
    · exact .inl hold
    · refine .inr ⟨rfl, ?_⟩
      intro y hy hsame
      have hid : a.msg.clientMsgID ≠ "" := hsame.symm.2.2.2
      rcases hg hgroup hid with hsame' | htaken
      · exact hsame' y hy hsame
      · obtain ⟨x, hx, hxu, hxc⟩ := htaken u hu
        have hb : Blocked mentionKeys c.world.store.mentionInboxes.rows
            (newMentionMessage now a.msg a.msgID a.topicSeq u) :=
          ⟨x, hx, conflict_mentionKeys.mpr ⟨hxu, .inr ⟨hxc, hid⟩⟩⟩
        exact absurd hb hfree

theorem together_saveOne (ht : Together c) (ha : c.attempts[h]? = some a)
    (hf : h ∈ c.fallback) (htr : Traced (c.saveOne h a now fault)) :
    Together (c.saveOne h a now fault) := by
  obtain ⟨_, b, hb, hgroup⟩ := ht.traced.queues.fallback h hf
  rw [ha] at hb
  obtain rfl := Option.some.inj hb
  have heff : SaveEffect now a.msg a.msgID a.topicSeq c.world.store
      (c.saveOne h a now fault).world.store := saveGroupMessage_effect (isGroup_iff.mp hgroup)
  refine ht.advance htr ?_ heff.messages_subset heff.mentionInboxes ?_
  · apply ht.agree_save heff
    intro r hr hnew
    rcases heff.inboxes_new r hr with hold | ⟨_, haddr, _⟩
    · exact absurd hold hnew
    · simp only [Addressed, isGroup_iff.mp hgroup] at haddr
  · intro k b us dup hk hks
    simp only [saveOne, resolve_apply] at hks
    split at hks
    · rename_i hkh
      obtain ⟨rfl, _⟩ := hkh
      have hka : c.attempts[k]? = some b := hk
      rw [ha] at hka
      obtain rfl := Option.some.inj hka
      obtain ⟨d, hd, _⟩ := map_eq_ok.mp (ok_of_ofResult hks)
      exact .inr fun _ => keyTaken_saveOne ht.traced ha hd
    · exact .inl ⟨hk, hks⟩

variable [DecidableEq ι]

theorem together_save (ht : Together c) (ha : c.attempts[h]? = some a)
    (hstage : c.stage h = .numbered) (hb : batched (cfg a.process) a.msg = false)
    (hg : KeepsTogether cfg c (.save h now fault tx)) :
    Together { c with
      world := { c.world with store := (NonokaIM.save (cfg a.process) now a.msg a.msgID
        a.topicSeq fault tx c.world.store).2 }
      stage := update c.stage h (Stage.ofResult (NonokaIM.save (cfg a.process) now
        a.msg a.msgID a.topicSeq fault tx c.world.store).1) } := by
  have heff : SaveEffect now a.msg a.msgID a.topicSeq c.world.store (NonokaIM.save
    (cfg a.process) now a.msg a.msgID a.topicSeq fault tx c.world.store).2 := save_effect
  refine ht.advance (traced_step ht.traced (.save h a now fault tx ha hstage hb)) ?_
    heff.messages_subset heff.mentionInboxes ?_
  · apply ht.agree_save heff
    intro r hr hnew
    exact ht.agree_of_new_inbox (hg a ha hstage) hr hnew
  · intro k b us dup hk hks
    rcases saved_of_update hks with ⟨rfl, hres⟩ | hold
    · rw [ha] at hk
      obtain rfl := Option.some.inj hk
      exact .inr fun hgroup => keyTaken_save ht.traced ha (.inl hstage) hgroup (ok_of_ofResult hres)
    · exact .inl ⟨hk, hold⟩

theorem together_finish (ht : Together c) {recipientIDs : List Int} {isDuplicate : Bool}
    {fault : CompleteFault} {stop : Option PoolSelect} (ha : c.attempts[h]? = some a)
    (hstage : c.stage h = .saved recipientIDs isDuplicate)
    (hg : KeepsTogether cfg c (.finish h now fault stop)) :
    Together (c.finish cfg h a recipientIDs isDuplicate now fault stop) := by
  have hstore : (c.finish cfg h a recipientIDs isDuplicate now fault stop).world.store = _ :=
    complete_store
  have hmsgs : (c.finish cfg h a recipientIDs isDuplicate now fault stop).world.store.messages =
      c.world.store.messages := by rw [hstore]
  have hsub : c.world.store.messages.rows ⊆
      (c.finish cfg h a recipientIDs isDuplicate now fault stop).world.store.messages.rows := by
    rw [hmsgs]
    exact List.Subset.refl _
  refine ⟨traced_step ht.traced (.finish h a recipientIDs isDuplicate now fault stop ha hstage),
    ?_, ?_, ?_⟩
  · refine ht.agree_mentions (hg a _ _ ha hstage) now fault.mention ?_ hmsgs ?_
    · rw [hstore]
    · rw [hstore]
  · intro r hr hid
    rw [hstore] at hr
    rcases mem_saveMentions hr with hold | ⟨hgroup, ⟨u, _, rfl⟩, _⟩
    · exact (ht.mentions r hold hid).mono hsub
    · exact (ht.saved h a _ _ ha hstage hgroup hid).mono hsub
  · intro k b us dup hk hks hgroup hid
    exact (ht.saved k b us dup hk (saved_of_update_ne hks nofun) hgroup hid).mono hsub

theorem together_step (ht : Together c) (hs : Step cfg c e c') (hg : KeepsTogether cfg c e) :
    Together c' := by
  have htr := traced_step ht.traced hs
  cases hs with
  | idle => exact ht
  | refuse => exact ht.of_stage htr rfl fun k b us dup hk hks => ⟨hk, hks⟩
  | accept i record msg msgID fault topicSeq hn =>
    exact ht.of_stage htr rfl fun k b us dup hk hks => saved_of_accept hk hks
  | queue h a now fault tx ha hstage hb | timeout h hstage =>
    exact ht.of_stage htr rfl fun k b us dup hk hks => ⟨hk, saved_of_update_ne hks nofun⟩
  | save h a now fault tx ha hstage hb => exact together_save ht ha hstage hb hg
  | flush i now fault dup hv =>
    refine ht.advance htr (ht.agree_batch i now fault) ?_ ?_ ?_
    · rw [saveGroupMessagesBatch_store]
      exact subset_insertMany _ _ _
    · rw [saveGroupMessagesBatch_store]
    · intro k b us dup' hk hks
      dsimp only at hks
      rw [foldl_resolve_apply] at hks
      split at hks
      · rename_i hkp
        exact .inr fun _ => keyTaken_flush ht.traced hv hkp.1 hk
      · exact .inl ⟨hk, hks⟩
  | fallBack i now fault hv =>
    refine ht.advance htr (ht.agree_batch i now fault) ?_ ?_ ?_
    · rw [saveGroupMessagesBatch_store]
      exact subset_insertMany _ _ _
    · rw [saveGroupMessagesBatch_store]
    · exact fun k b us dup hk hks => .inl ⟨hk, hks⟩
  | saveOne h a now fault ha hf => exact together_saveOne ht ha hf htr
  | finish h a recipientIDs isDuplicate now fault stop ha hstage =>
    exact together_finish ht ha hstage hg
  | restart i =>
    refine ht.of_stage htr rfl ?_
    intro k b us dup hk hks
    simp only [restart] at hks
    split at hks
    · cases hks
    · exact ⟨hk, hks⟩

/-- In every run whose writes keep the rows of a message together, its copies have one message
id and one seq. -/
theorem copies_agree_run (cfg : ι → WorkerConfig) (es : List (ClusterEvent ι))
    (hg : GuardedRun.Along (step cfg) (KeepsTogether cfg) (init ι) es) :
    CopiesAgree ((init ι).run cfg es).world.store := by
  have hstep : ∀ (c : Cluster ι) e, Together c → KeepsTogether cfg c e → Together (c.step cfg e) :=
    fun c e ht hk => together_step ht (step_cases cfg c e) hk
  exact (GuardedRun.invariant_run hstep together_init hg).agree

def greeting : UpstreamMessage := { senderID := 1, topic := "p2p_1_2", clientMsgID := "m1" }

/-- The first insert fails as a whole, and the second attempt stores both rows. -/
theorem copies_agree_after_failed_insert :
    CopiesAgree ((init Unit).run (fun _ => {})
      [.accept () 0 greeting 7 .none, .save 0 0 { insert := .refuseAll } .none,
        .accept () 0 greeting 8 .none, .save 1 0 .none .none]).world.store := by
  apply copies_agree_run
  refine ⟨trivial, ?_, trivial, ?_, trivial⟩
  · intro a ha _ _ _
    obtain rfl := Option.some.inj ha
    intro _
    exact .inl (by decide)
  · intro a ha _ _ _
    obtain rfl := Option.some.inj ha
    intro _
    exact .inl (by decide)

/-- The first attempt stores the receiver's row only, and the second one adds the sender's row
with ids of its own. -/
theorem copies_differ_after_partial_insert :
    ¬ CopiesAgree ((init Unit).run (fun _ => {}) [.accept () 0 greeting 7 .none,
        .save 0 0 { insert := { refused := fun i => i = 1 } } .none,
        .accept () 0 greeting 8 .none, .save 1 0 .none .none]).world.store := by
  decide

end Cluster

end NonokaIM
