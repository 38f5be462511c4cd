import NonokaIM.Verification.Worker.Copies

/-! # Delivery of handled messages

An attempt that wrote rows and then failed makes every later one look like a duplicate. -/

namespace NonokaIM

open DocumentStore List Option GroupBatchItem World Function Cluster Except

/-! ## Fresh messages -/

def InboxFree (s : Store) (userID : Int) (clientMsgID : String) : Prop :=
  clientMsgID ≠ "" → ∀ r ∈ s.inboxes.rows, ¬ (r.userID = userID ∧ r.clientMsgID = clientMsgID)

def GroupFree (s : Store) (msg : UpstreamMessage) : Prop :=
  msg.clientMsgID ≠ "" → ¬ KeyTaken s msg.senderID msg.clientMsgID

/-- No collection that the message goes to holds a row under its client id, and a P2P message
goes to two users. -/
def Unsaved (s : Store) (msg : UpstreamMessage) : Prop :=
  match parseTopicType msg.topic with
  | .p2p => ∀ uid1 uid2, extractUserIDsFromP2PTopic msg.topic = .ok (uid1, uid2) →
      receiverOf msg uid1 uid2 ≠ msg.senderID ∧
        InboxFree s (receiverOf msg uid1 uid2) msg.clientMsgID ∧
        InboxFree s msg.senderID msg.clientMsgID
  | .group => GroupFree s msg
  | .system => ∀ target, extractSystemTarget msg.topic = .ok target →
      InboxFree s target msg.clientMsgID
  | .unknown => True

/-- Who a fresh message is delivered to; a group message goes to the members at that time. -/
def recipientsOf (msg : UpstreamMessage) : List Int :=
  match parseTopicType msg.topic with
  | .p2p =>
    match extractUserIDsFromP2PTopic msg.topic with
    | .ok (uid1, uid2) => [receiverOf msg uid1 uid2, msg.senderID]
    | .error _ => []
  | .system =>
    match extractSystemTarget msg.topic with
    | .ok target => [target]
    | .error _ => []
  | _ => []

theorem recipientsOf_of_isGroup {msg : UpstreamMessage} (h : isGroup msg = true) :
    recipientsOf msg = [] := by
  simp only [recipientsOf, isGroup_iff.mp h]

def SeqFree (s : Store) (topic : String) (topicSeq : ℕ) : Prop :=
  (∀ r ∈ s.inboxes.rows, ¬ (r.topic = topic ∧ r.topicSeq = topicSeq)) ∧
    ∀ r ∈ s.messages.rows, ¬ (r.topic = topic ∧ r.topicSeq = topicSeq)

section

variable {cfg : WorkerConfig} {now : Int} {msg : UpstreamMessage} {msgID : Int} {topicSeq : ℕ}
  {fault : SaveFault} {tx : TxFault} {s : Store}

theorem not_blocked_inbox {userID : Int} {read : Bool} (hseq : SeqFree s msg.topic topicSeq)
    (hfree : InboxFree s userID msg.clientMsgID) :
    ¬ Blocked inboxKeys s.inboxes.rows (newInboxMessage now msg msgID topicSeq userID read) := by
  rintro ⟨x, hx, hc⟩
  obtain ⟨hu, hkey⟩ := conflict_inboxKeys.mp hc
  rcases hkey with hkey | ⟨hclient, hid⟩
  · exact hseq.1 x hx hkey
  · exact hfree hid x hx ⟨hu, hclient⟩

theorem not_blocked_message (hseq : ∀ r ∈ s.messages.rows,
      ¬ (r.topic = msg.topic ∧ r.topicSeq = topicSeq)) (hfree : GroupFree s msg) :
    ¬ Blocked messageKeys s.messages.rows (newStoredMessage now msg msgID topicSeq) := by
  rintro ⟨x, hx, hc⟩
  rcases conflict_messageKeys.mp hc with hkey | ⟨hsender, hclient, hid⟩
  · exact hseq x hx hkey
  · exact hfree hid ⟨x, hx, hsender, hclient⟩

variable {r : List Int × Bool}

theorem saveP2PMessage_fresh (ht : parseTopicType msg.topic = .p2p)
    (hseq : SeqFree s msg.topic topicSeq) (hfree : Unsaved s msg)
    (hr : (saveP2PMessage now msg msgID topicSeq fault s).1 = .ok r) :
    r = (recipientsOf msg, false) := by
  cases hx : extractUserIDsFromP2PTopic msg.topic with
  | error e =>
    rw [saveP2PMessage_error hx] at hr
    cases hr
  | ok uids =>
    obtain ⟨uid1, uid2⟩ := uids
    simp only [Unsaved, ht] at hfree
    obtain ⟨hne, hreceiver, hsender⟩ := hfree uid1 uid2 hx
    have hrows : ∀ x ∈ p2pRows now msg msgID topicSeq (receiverOf msg uid1 uid2),
        ¬ Blocked inboxKeys s.inboxes.rows x := by
      intro x hmem
      simp only [p2pRows, mem_cons, not_mem_nil, or_false] at hmem
      rcases hmem with rfl | rfl
      · exact not_blocked_inbox hseq hreceiver
      · exact not_blocked_inbox hseq hsender
    have hfresh := fresh_p2pRows_iff.mpr ⟨hne, hrows⟩
    rw [(saveP2PMessage_ok hx hr).2, hfresh]
    simp only [recipientsOf, ht, hx]

theorem saveGroupMessage_fresh {dup : Bool} (hfree : ¬ Blocked messageKeys s.messages.rows
      (newStoredMessage now msg msgID topicSeq))
    (hr : (saveGroupMessage now msg msgID topicSeq fault s).1 = .ok dup) : dup = false := by
  rcases saveGroupMessage_ok hr with ⟨hdup, _⟩ | ⟨_, hb⟩
  · exact hdup
  · exact absurd hb hfree

theorem saveP2PMessageWithAgentEvent_fresh {ev : MessageEvent}
    (ht : parseTopicType msg.topic = .p2p) (hseq : SeqFree s msg.topic topicSeq)
    (hfree : Unsaved s msg)
    (hr : (saveP2PMessageWithAgentEvent now msg msgID topicSeq ev fault tx s).1 = .ok r) :
    r = (recipientsOf msg, false) := by
  rcases saveP2PMessageWithAgentEvent_cases ev tx with ⟨_, _, hroll⟩ | ⟨a, _, ha, _, _, _, heq⟩
  · exact saveP2PMessage_fresh ht hseq hfree (hroll r hr).1
  · rw [heq r hr]
    exact saveP2PMessage_fresh ht hseq hfree ha

theorem saveGroupMessageWithAgentEvent_fresh {ev : MessageEvent} {dup : Bool}
    (hfree : ¬ Blocked messageKeys s.messages.rows (newStoredMessage now msg msgID topicSeq))
    (hr : (saveGroupMessageWithAgentEvent now msg msgID topicSeq ev fault tx s).1 = .ok dup) :
    dup = false := by
  rcases saveGroupMessageWithAgentEvent_cases ev tx with ⟨_, _, hroll⟩ | ⟨a, _, ha, _, _, _, heq⟩
  · exact saveGroupMessage_fresh hfree (hroll dup hr).1
  · rw [heq dup hr]
    exact saveGroupMessage_fresh hfree ha

theorem saveSystemMessage_fresh (ht : parseTopicType msg.topic = .system)
    (hseq : SeqFree s msg.topic topicSeq) (hfree : Unsaved s msg)
    (hr : (saveSystemMessage now msg msgID topicSeq fault s).1 = .ok r) :
    r = (recipientsOf msg, false) := by
  cases hx : extractSystemTarget msg.topic with
  | error e =>
    rw [saveSystemMessage_error hx] at hr
    cases hr
  | ok target =>
    simp only [Unsaved, ht] at hfree
    rw [saveSystemMessage_result hx] at hr
    rcases insertOne_cases s.inboxes fault.insert
      (newInboxMessage now msg msgID topicSeq target false) with
      ⟨hok, _⟩ | ⟨_, hb, _⟩ | ⟨hfail, _⟩
    · rw [hok] at hr
      rw [← ok.inj hr]
      simp only [recipientsOf, ht, hx]
    · exact absurd hb (not_blocked_inbox hseq (hfree target hx))
    · rw [hfail] at hr
      cases hr

theorem save_fresh (hseq : SeqFree s msg.topic topicSeq) (hfree : Unsaved s msg)
    (hr : (save cfg now msg msgID topicSeq fault tx s).1 = .ok r) :
    r = (recipientsOf msg, false) := by
  cases ht : parseTopicType msg.topic with
  | p2p =>
    simp only [save, ht] at hr
    have hp2p := wrapErr_eq_ok.mp hr
    split at hp2p
    · exact saveP2PMessageWithAgentEvent_fresh ht hseq hfree hp2p
    · exact saveP2PMessage_fresh ht hseq hfree hp2p
  | group =>
    have hunblocked : ¬ Blocked messageKeys s.messages.rows
        (newStoredMessage now msg msgID topicSeq) := by
      simp only [Unsaved, ht] at hfree
      exact not_blocked_message hseq.2 hfree
    simp only [save, ht] at hr
    obtain ⟨dup, hdup, rfl⟩ := map_eq_ok.mp (wrapErr_eq_ok.mp hr)
    have hfalse : dup = false := by
      split at hdup
      · exact saveGroupMessageWithAgentEvent_fresh hunblocked hdup
      · exact saveGroupMessage_fresh hunblocked hdup
    rw [hfalse, recipientsOf_of_isGroup (isGroup_iff.mpr ht)]
  | system =>
    simp only [save, ht] at hr
    exact saveSystemMessage_fresh ht hseq hfree (wrapErr_eq_ok.mp hr)
  | unknown => simp [save, ht] at hr

end

/-! ## What a delivery leaves behind -/

/-- The topic seq of the attempt is backed up, the conversation summaries that its worker writes
are written, and its task is in the push pool. -/
structure Delivered {ι : Type} (cfg : ι → WorkerConfig) (w : World) (a : Attempt ι) : Prop where
  backup : a.topicSeq ≤ getTopicMaxSeq a.msg.topic w.store
  summaries : ∀ userID ∈ upsertUsers (cfg a.process) a.msg (recipientsOf a.msg) false,
    ⟨userID, a.msg.topic, a.topicSeq⟩ ∈ w.conversations
  task : ⟨a.msg, a.msgID, a.topicSeq, recipientsOf a.msg, isGroup a.msg⟩ ∈ w.pushPool

/-- Summaries and tasks are only added, and maxima only rise. -/
structure World.Grows (w w' : World) : Prop where
  backup : ∀ topic, getTopicMaxSeq topic w.store ≤ getTopicMaxSeq topic w'.store
  conversations : w.conversations ⊆ w'.conversations
  pushPool : w.pushPool ⊆ w'.pushPool

theorem Delivered.grow {ι : Type} {cfg : ι → WorkerConfig} {w w' : World} {a : Attempt ι}
    (h : Delivered cfg w a) (hw : w.Grows w') : Delivered cfg w' a where
  backup := Nat.le_trans h.backup (hw.backup _)
  summaries := fun userID hu => hw.conversations (h.summaries userID hu)
  task := hw.pushPool h.task

theorem World.grows_of_store {w : World} {s : Store} (h : s.topicSeqs = w.store.topicSeqs) :
    w.Grows { w with store := s } where
  backup := by
    intro topic
    simp [getTopicMaxSeq, h]
  conversations := Subset.refl _
  pushPool := Subset.refl _

section

variable {cfg : WorkerConfig} {now : Int} {msg : UpstreamMessage} {msgID : Int} {topicSeq : ℕ}
  {recipientIDs : List Int} {isDuplicate : Bool} {fault : CompleteFault} {pool : PoolSelect}
  {w : World}

theorem mem_upsertEach {upsert : ℕ → CallFault} {uids : List Int}
    (hup : ∀ i, (upsert i).applied = true) {userID : Int} (hu : userID ∈ uids) :
    ⟨userID, msg.topic, topicSeq⟩ ∈ upsertEach msg topicSeq upsert uids := by
  induction uids generalizing upsert with
  | nil => cases hu
  | cons uid uids ih =>
    rw [upsertEach, hup 0, if_pos rfl]
    rcases mem_cons.mp hu with rfl | hu
    · exact mem_append_left _ mem_cons_self
    · exact mem_append_right _ (ih (fun i => hup (i + 1)) hu)

theorem getTopicMaxSeq_backup (topic : String) (seq : ℕ) (fault : CallFault) (s : Store)
    (t : String) : getTopicMaxSeq t s ≤ getTopicMaxSeq t (backupTopicSeq topic seq fault s).2 := by
  simp only [backupTopicSeq, getTopicMaxSeq]
  split
  · dsimp only
    split
    · rename_i ht
      rw [ht, getD_some]
      exact Nat.le_max_right ..
    · exact Nat.le_refl _
  · exact Nat.le_refl _

theorem topicSeqs_saveMentions (fault : SaveFault) (s : Store) :
    (saveMentions now msg msgID topicSeq fault s).topicSeqs = s.topicSeqs := by
  rw [saveMentions_store]

theorem complete_grows :
    w.Grows (complete cfg now msg msgID topicSeq recipientIDs isDuplicate fault pool w).2 := by
  have hmax : ∀ t, getTopicMaxSeq t w.store ≤ getTopicMaxSeq t
      (backupTopicSeq msg.topic topicSeq fault.backup
        (saveMentions now msg msgID topicSeq fault.mention w.store)).2 := by
    intro t
    refine Nat.le_trans ?_ (getTopicMaxSeq_backup ..)
    simp [getTopicMaxSeq, topicSeqs_saveMentions]
  cases isDuplicate with
  | true => exact grows_of_store (topicSeqs_saveMentions ..)
  | false =>
    cases pool with
    | queued => exact ⟨hmax, subset_append_left .., subset_append_left ..⟩
    | stopped | closed => exact ⟨hmax, subset_append_left .., Subset.refl _⟩

theorem delivered_complete {ι : Type} {cfg : ι → WorkerConfig} {a : Attempt ι}
    (hbackup : fault.backup.applied = true) (hmembers : fault.members = false)
    (hup : ∀ i, (fault.upsert i).applied = true) :
    Delivered cfg (complete (cfg a.process) now a.msg a.msgID a.topicSeq (recipientsOf a.msg) false
      fault .queued w).2 a where
  backup := by
    simp only [complete, Bool.false_eq_true, if_false, upsertConversations, getTopicMaxSeq,
      backupTopicSeq, hbackup, if_true, getD_some]
    exact Nat.le_max_left ..
  summaries := by
    intro userID hu
    simp only [complete, Bool.false_eq_true, if_false, upsertConversations, hmembers]
    exact mem_append_right _ (mem_upsertEach hup hu)
  task := by
    simp [complete, upsertConversations]

end

namespace Cluster

variable {ι : Type} {cfg : ι → WorkerConfig} {c c' : Cluster ι} {e : ClusterEvent ι} {k : ℕ}

/-! ## The runs that deliver -/

/-- Some attempt of the Kafka record has delivered its message. -/
def RecordDelivered (cfg : ι → WorkerConfig) (k : ℕ) (c : Cluster ι) : Prop :=
  ∃ h a, c.attempts[(h : ℕ)]? = some a ∧ a.record = k ∧ Delivered cfg c.world a

def SharesClientID (x y : GroupBatchItem) : Prop :=
  x.msg.senderID = y.msg.senderID ∧ x.msg.clientMsgID = y.msg.clientMsgID ∧ y.msg.clientMsgID ≠ ""

/-- The batch finds no duplicate: its insert fails for some document, or all its messages are
fresh and no two of them share a client id. -/
def FreshBatch (s : Store) (items : List GroupBatchItem) (fault : SaveFault) : Prop :=
  fault.insert.lost = true ∨ (∃ p < items.length, fault.insert.refused p = true) ∨
    (∀ item ∈ items, GroupFree s item.msg) ∧ items.Pairwise fun x y => ¬ SharesClientID x y

/-- Each step that concerns record `k` saves what has left no row behind before, and the calls after
the save are carried out. -/
def LeavesNothing (cfg : ι → WorkerConfig) (k : ℕ) (c : Cluster ι) : ClusterEvent ι → Prop
  | .save h _ _ _ => ∀ a, c.attempts[h]? = some a → a.record = k →
      batched (cfg a.process) a.msg = false → Unsaved c.world.store a.msg
  | .flush i _ fault => ∀ h ∈ c.pending i, ∀ a, c.attempts[h]? = some a → a.record = k →
      FreshBatch c.world.store (c.items (c.pending i)) fault
  | .saveOne h _ _ => ∀ a, c.attempts[h]? = some a → a.record = k →
      GroupFree c.world.store a.msg ∧ ∀ r ∈ c.world.store.messages.rows,
        ¬ (r.topic = a.msg.topic ∧ r.topicSeq = a.topicSeq)
  | .finish h _ fault _ => ∀ a, c.attempts[h]? = some a → a.record = k →
      fault.backup.applied = true ∧ fault.members = false ∧
        ∀ i, (fault.upsert i).applied = true
  | _ => True

/-- The condition holds until the record is delivered. -/
def KeepsDelivery (cfg : ι → WorkerConfig) (k : ℕ) (c : Cluster ι) (e : ClusterEvent ι) : Prop :=
  RecordDelivered cfg k c ∨ LeavesNothing cfg k c e

/-- The saved messages of record `k` were fresh when they were saved. -/
def SavedFresh (k : ℕ) (c : Cluster ι) : Prop :=
  ∀ (h : ℕ) a recipientIDs isDuplicate, c.attempts[h]? = some a → a.record = k →
    c.stage h = .saved recipientIDs isDuplicate →
    recipientIDs = recipientsOf a.msg ∧ isDuplicate = false

/-- Whatever is saved for record `k` was fresh, until the record is delivered; and it is delivered
once one of its handlers has returned. -/
structure Tracked (cfg : ι → WorkerConfig) (k : ℕ) (c : Cluster ι) : Prop where
  traced : Traced c
  acks : ∀ h b, (h, b) ∈ c.acks → ∃ a, c.attempts[h]? = some a
  saved : RecordDelivered cfg k c ∨ SavedFresh k c
  acked : ∀ (h : ℕ) a, c.attempts[h]? = some a → a.record = k → (h, false) ∈ c.acks →
    RecordDelivered cfg k c

theorem tracked_init : Tracked cfg k (init ι) where
  traced := traced_init
  acks := by simp [init]
  saved := .inr (by simp [SavedFresh, init])
  acked := by simp [init]

/-! ## Batches -/

theorem items_pairwise (ht : Traced c) (i : ι) :
    (c.items (c.pending i)).Pairwise fun x y =>
      ¬ (x.msg.topic = y.msg.topic ∧ x.topicSeq = y.topicSeq) := by
  refine pairwise_filterMap.mpr ((ht.queues.nodup i).imp ?_)
  rintro h k hne x hx y hy ⟨htopic, hseq⟩
  obtain ⟨a, ha, rfl⟩ := map_eq_some_iff.mp hx
  obtain ⟨b, hb, rfl⟩ := map_eq_some_iff.mp hy
  exact hne (ht.numbering.eq_of_seq ha hb htopic hseq)

variable {fault : SaveFault} {now : Int}

theorem not_duplicate_of_freshBatch (ht : Traced c) {i : ι}
    {dup : Bool} (hfresh : FreshBatch c.world.store (c.items (c.pending i)) fault)
    (hv : batchVerdict (c.items (c.pending i)).length
      (saveGroupMessagesBatch now (c.items (c.pending i)) fault c.world.store).1 = some dup) :
    dup = false := by
  rcases hfresh with hlost | ⟨p, hp, hrefused⟩ | ⟨hfree, hpair⟩
  · by_cases hnil : c.items (c.pending i) = []
    · simpa [hnil, saveGroupMessagesBatch, batchVerdict] using hv.symm
    · simp [saveGroupMessagesBatch, hnil, insertBulk, hlost, batchVerdict] at hv
  · rw [batchVerdict_of_refused hp hrefused] at hv
    cases hv
  · have hrows : ∀ r ∈ (c.items (c.pending i)).map (row now),
        ¬ Blocked messageKeys c.world.store.messages.rows r := by
      intro r hr
      obtain ⟨item, hitem, rfl⟩ := mem_map.mp hr
      obtain ⟨h, hh, a, ha, rfl⟩ := mem_items hitem
      exact not_blocked_message (ht.seq_free ha (.inr ⟨i, hh⟩)).2 (hfree _ hitem)
    have hconflict : ((c.items (c.pending i)).map (row now)).Pairwise
        fun a b => ¬ Conflict messageKeys a b := by
      refine pairwise_map.mpr (((items_pairwise ht i).and hpair).imp ?_)
      rintro x y ⟨hseq, hclient⟩ hc
      rcases conflict_messageKeys.mp hc with hkey | hkey
      · exact hseq hkey
      · exact hclient hkey
    have hall : ∀ f ∈ (c.world.store.messages.insertAll
        ((c.items (c.pending i)).map (row now))).2, f = .stored :=
      Collection.all_stored (fun _ _ => rfl) hrows hconflict
    rw [(batchVerdict_spec hv).2]
    simpa using hall

/-! ## Steps -/

theorem RecordDelivered.grow (h : RecordDelivered cfg k c) (hw : c.world.Grows c'.world)
    (hatt : ∀ (j : ℕ) a, c.attempts[j]? = some a → c'.attempts[j]? = some a) :
    RecordDelivered cfg k c' := by
  obtain ⟨j, a, ha, hk, hd⟩ := h
  exact ⟨j, a, hatt j a ha, hk, hd.grow hw⟩

theorem SavedFresh.of_stage (h : SavedFresh k c) (hatt : c'.attempts = c.attempts)
    (hstage : ∀ j a recipientIDs isDuplicate, c.attempts[(j : ℕ)]? = some a → a.record = k →
      c'.stage j = .saved recipientIDs isDuplicate → c'.stage j ≠ c.stage j →
      recipientIDs = recipientsOf a.msg ∧ isDuplicate = false) : SavedFresh k c' := by
  intro j a recipientIDs isDuplicate ha hk hj
  rw [hatt] at ha
  by_cases hold : c'.stage j = c.stage j
  · exact h j a recipientIDs isDuplicate ha hk (hold ▸ hj)
  · exact hstage j a recipientIDs isDuplicate ha hk hj hold

theorem SavedFresh.of_update (h : SavedFresh k c) (hatt : c'.attempts = c.attempts) {j : ℕ}
    {st : Stage} (hupdate : c'.stage = update c.stage j st)
    (hst : ∀ a recipientIDs isDuplicate, c.attempts[j]? = some a → a.record = k →
      st = .saved recipientIDs isDuplicate →
      recipientIDs = recipientsOf a.msg ∧ isDuplicate = false) : SavedFresh k c' := by
  refine h.of_stage hatt ?_
  intro l a recipientIDs isDuplicate hl hk hj hne
  rw [hupdate] at hj hne
  by_cases hlj : l = j
  · subst l
    rw [update_self] at hj
    exact hst a recipientIDs isDuplicate hl hk hj
  · exact absurd (update_of_ne hlj ..) hne

theorem ofResult_map_eq_saved {r : Except String Bool} {recipientIDs : List Int}
    {isDuplicate : Bool} (h : Stage.ofResult (r.map fun isDuplicate => ([], isDuplicate)) =
      .saved recipientIDs isDuplicate) : recipientIDs = [] ∧ r = .ok isDuplicate := by
  have hr := ok_of_ofResult h
  obtain ⟨dup, rfl, heq⟩ := map_eq_ok.mp hr
  simp only [Prod.mk.injEq] at heq
  exact ⟨heq.1.symm, heq.2 ▸ rfl⟩

theorem SavedFresh.of_resolve (h : SavedFresh k c) (hatt : c'.attempts = c.attempts)
    {r : Except String Bool} {p : ℕ → Prop} (hstage : ∀ l, c'.stage l = c.stage l ∨
      p l ∧ c'.stage l = Stage.ofResult (r.map fun isDuplicate => ([], isDuplicate)))
    (hres : ∀ l a isDuplicate, p l → c.attempts[(l : ℕ)]? = some a → a.record = k →
      r = .ok isDuplicate → isGroup a.msg = true ∧ isDuplicate = false) : SavedFresh k c' := by
  refine h.of_stage hatt ?_
  intro l a recipientIDs isDuplicate hl hk hj hne
  rcases hstage l with hsame | ⟨hp, hnew⟩
  · exact absurd hsame hne
  · rw [hnew] at hj
    obtain ⟨hnil, hdup⟩ := ofResult_map_eq_saved hj
    obtain ⟨hgroup, hfresh⟩ := hres l a isDuplicate hp hl hk hdup
    rw [hnil, recipientsOf_of_isGroup hgroup]
    exact ⟨rfl, hfresh⟩

theorem savedFresh_flush (h : SavedFresh k c) (ht : Traced c) {i : ι} {dup : Bool}
    (hg : LeavesNothing cfg k c (.flush i now fault))
    (hv : batchVerdict (c.items (c.pending i)).length
      (saveGroupMessagesBatch now (c.items (c.pending i)) fault c.world.store).1 = some dup)
    (hatt : c'.attempts = c.attempts)
    (hstage : c'.stage = (c.pending i).foldl (fun stage h => resolve stage h (.ok dup)) c.stage) :
    SavedFresh k c' := by
  refine h.of_resolve hatt (r := .ok dup) (p := (· ∈ c.pending i)) ?_ ?_
  · intro l
    rw [hstage, foldl_resolve_apply]
    split
    · rename_i hl
      exact .inr ⟨hl.1, rfl⟩
    · exact .inl rfl
  · intro l a isDuplicate hl ha hk hdup
    obtain ⟨_, b, hb, _, hgroup⟩ := ht.queues.pending i l hl
    obtain rfl : b = a := some.inj (hb.symm.trans ha)
    rw [← ok.inj hdup]
    exact ⟨hgroup, not_duplicate_of_freshBatch ht (hg l hl b hb hk) hv⟩

theorem savedFresh_saveOne (h : SavedFresh k c) (ht : Traced c) {j : ℕ}
    (hg : LeavesNothing cfg k c (.saveOne j now fault)) (ha : c.attempts[j]? = some a)
    (hf : j ∈ c.fallback) : SavedFresh k (c.saveOne j a now fault) := by
  refine h.of_resolve rfl (p := (· = j))
    (r := (saveGroupMessage now a.msg a.msgID a.topicSeq fault c.world.store).1) ?_ ?_
  · intro l
    simp only [saveOne, resolve_apply]
    split
    · rename_i hl
      exact .inr ⟨hl.1, rfl⟩
    · exact .inl rfl
  · rintro l b isDuplicate rfl hb hk hdup
    obtain ⟨_, x, hx, hgroup⟩ := ht.queues.fallback l hf
    obtain rfl : x = a := some.inj (hx.symm.trans ha)
    obtain rfl : x = b := some.inj (hx.symm.trans hb)
    obtain ⟨hfree, hseq⟩ := hg x hx hk
    exact ⟨hgroup, saveGroupMessage_fresh (not_blocked_message hseq hfree) hdup⟩

theorem recordDelivered_finish (hf : SavedFresh k c) {h : ℕ} {recipientIDs : List Int}
    {isDuplicate : Bool} {fault : CompleteFault} {stop : Option PoolSelect}
    (hg : LeavesNothing cfg k c (.finish h now fault stop)) (ha : c.attempts[h]? = some a)
    (hk : a.record = k) (hstage : c.stage h = .saved recipientIDs isDuplicate)
    (hstop : stop.isSome = false) :
    RecordDelivered cfg k (c.finish cfg h a recipientIDs isDuplicate now fault stop) := by
  obtain ⟨rfl, rfl⟩ := hf h a recipientIDs isDuplicate ha hk hstage
  obtain ⟨hbackup, hmembers, hup⟩ := hg a ha hk
  cases stop with
  | none => exact ⟨h, a, ha, hk, delivered_complete hbackup hmembers hup⟩
  | some pool => cases hstop

variable [DecidableEq ι]

theorem step_grows (hs : Step cfg c e c') : c.world.Grows c'.world := by
  cases hs with
  | save h a now fault tx ha hs hb => exact grows_of_store save_effect.topicSeqs
  | flush i now fault dup hv | fallBack i now fault hv =>
    apply grows_of_store
    rw [saveGroupMessagesBatch_store]
  | saveOne h a now fault ha hf =>
    apply grows_of_store
    rw [saveGroupMessage_store]
  | finish h a recipientIDs isDuplicate now fault stop ha hs => exact complete_grows
  | refuse | accept | idle | queue | timeout | restart => exact grows_of_store rfl

variable {a : Attempt ι}

theorem savedFresh_step (h : SavedFresh k c) (ht : Traced c) (hg : LeavesNothing cfg k c e)
    (hs : Step cfg c e c') : SavedFresh k c' := by
  cases hs with
  | idle | refuse | fallBack => exact h
  | accept i record msg msgID fault topicSeq hn =>
    intro j a recipientIDs isDuplicate ha hk hj
    obtain ⟨hold, hstage⟩ := saved_of_accept ha hj
    exact h j a recipientIDs isDuplicate hold hk hstage
  | queue j a now fault tx ha hstage hb | timeout j hstage
  | finish j a rs dup now fault stop ha hstage => exact h.of_update rfl rfl nofun
  | save j a now fault tx ha hstage hb =>
    refine h.of_update rfl rfl ?_
    intro b recipientIDs isDuplicate hl hk hj
    obtain rfl : a = b := some.inj (ha.symm.trans hl)
    exact Prod.mk.inj (save_fresh (ht.seq_free ha (.inl hstage)) (hg a ha hk hb)
      (ok_of_ofResult hj))
  | flush i now fault dup hv => exact savedFresh_flush h ht hg hv rfl rfl
  | saveOne j a now fault ha hf => exact savedFresh_saveOne h ht hg ha hf
  | restart i =>
    refine h.of_stage rfl ?_
    intro l b recipientIDs isDuplicate hl hk hj hne
    simp only [restart] at hj hne
    split at hj
    · cases hj
    · rename_i hrun
      rw [if_neg hrun] at hne
      exact absurd rfl hne

theorem mem_acks_step (hs : Step cfg c e c') {h : ℕ} {b : Bool} (hack : (h, b) ∈ c'.acks) :
    (h, b) ∈ c.acks ∨ ∃ a recipientIDs isDuplicate now fault stop,
      e = .finish h now fault stop ∧ b = stop.isSome ∧ c.attempts[h]? = some a ∧
      c.stage h = .saved recipientIDs isDuplicate ∧
      c' = c.finish cfg h a recipientIDs isDuplicate now fault stop := by
  cases hs with
  | finish j a recipientIDs isDuplicate now fault stop ha hstage =>
    simp only [finish] at hack
    split at hack
    · rcases mem_append.mp hack with hold | hnew
      · exact .inl hold
      · simp only [mem_singleton, Prod.mk.injEq] at hnew
        obtain ⟨rfl, rfl⟩ := hnew
        exact .inr ⟨a, recipientIDs, isDuplicate, now, fault, stop, rfl, rfl, ha, hstage, rfl⟩
    · exact .inl hack
  | idle | refuse | accept | queue | save | flush | fallBack | saveOne | timeout | restart =>
    exact .inl hack

theorem tracked_step (h : Tracked cfg k c) (hg : KeepsDelivery cfg k c e) (hs : Step cfg c e c') :
    Tracked cfg k c' := by
  have hgrow : RecordDelivered cfg k c → RecordDelivered cfg k c' :=
    fun hd => hd.grow (step_grows hs) fun _ _ => step_attempts hs
  refine ⟨traced_step h.traced hs, ?_, ?_, ?_⟩
  · intro j b hack
    rcases mem_acks_step hs hack with hold | ⟨a, _, _, _, _, _, _, _, ha, _⟩
    · obtain ⟨a, ha⟩ := h.acks j b hold
      exact ⟨a, step_attempts hs ha⟩
    · exact ⟨a, step_attempts hs ha⟩
  · rcases hg with hd | hg
    · exact .inl (hgrow hd)
    · rcases h.saved with hd | hf
      · exact .inl (hgrow hd)
      · exact .inr (savedFresh_step hf h.traced hg hs)
  · intro j a ha hk hack
    rcases mem_acks_step hs hack with hold | ⟨b, _, _, _, _, _, he, hstop, hb, hstage, hc'⟩
    · obtain ⟨b, hb⟩ := h.acks j false hold
      obtain rfl : b = a := some.inj ((step_attempts hs hb).symm.trans ha)
      exact hgrow (h.acked j b hb hk hold)
    · obtain rfl : b = a := some.inj ((step_attempts hs hb).symm.trans ha)
      rcases hg with hd | hg
      · exact hgrow hd
      · rcases h.saved with hd | hf
        · exact hgrow hd
        · rw [hc']
          rw [he] at hg
          exact recordDelivered_finish hf hg hb hk hstage hstop.symm

/-- Once a handler of a record has returned without an error, and its worker was not stopping,
some attempt of the record has delivered the message, if every step of the run keeps delivery:
until then, no attempt saves what an earlier one has left rows of, and no call after a save
fails. -/
theorem record_delivered_run (cfg : ι → WorkerConfig) (k : ℕ) (es : List (ClusterEvent ι))
    (hg : GuardedRun.Along (step cfg) (KeepsDelivery cfg k) (init ι) es) (h : ℕ) (a : Attempt ι)
    (ha : ((init ι).run cfg es).attempts[h]? = some a) (hk : a.record = k)
    (hack : (h, false) ∈ ((init ι).run cfg es).acks) :
    RecordDelivered cfg k ((init ι).run cfg es) := by
  have hstep : ∀ (c : Cluster ι) e, Tracked cfg k c → KeepsDelivery cfg k c e →
      Tracked cfg k (c.step cfg e) :=
    fun c e ht hg => tracked_step ht hg (step_cases cfg c e)
  exact (GuardedRun.invariant_run hstep tracked_init hg).acked h a ha hk hack

/-- The first insert fails as a whole, and the second attempt delivers the greeting. -/
theorem greeting_delivered_after_failed_insert :
    RecordDelivered (fun _ => {}) 0 ((init Unit).run (fun _ => {})
      [.accept () 0 greeting 7 .none, .save 0 0 { insert := .refuseAll } .none,
        .accept () 0 greeting 8 .none, .save 1 0 .none .none, .finish 1 0 {} none]) := by
  apply record_delivered_run _ _ _ ?_ 1 ⟨0, (), greeting, 8, 2⟩ (by decide) rfl (by decide)
  have hunsaved : ∀ s : Store, s.inboxes.rows = [] → Unsaved s greeting := by
    intro s hs
    have htopic : parseTopicType greeting.topic = .p2p := by decide
    have husers : extractUserIDsFromP2PTopic greeting.topic = .ok (1, 2) := by decide
    simp only [Unsaved, htopic, husers, ok.injEq, Prod.mk.injEq, InboxFree, hs]
    rintro _ _ ⟨rfl, rfl⟩
    exact ⟨by decide, by simp, by simp⟩
  refine ⟨.inr trivial, .inr ?_, .inr trivial, .inr ?_, .inr ?_, trivial⟩
  · intro a ha _ _
    obtain rfl := some.inj ha
    exact hunsaved _ rfl
  · intro a ha _ _
    obtain rfl := some.inj ha
    exact hunsaved _ rfl
  · intro a ha _
    exact ⟨rfl, rfl, fun _ => rfl⟩

def appliedInsert : List (ClusterEvent Unit) :=
  [.accept () 0 greeting 7 .none, .save 0 0 { insert := { lost := true } } .none,
    .accept () 0 greeting 8 .none, .save 1 0 .none .none, .finish 1 0 {} none]

/-- The second attempt takes the greeting for a duplicate and returns, and nobody delivers it. -/
theorem greeting_lost_after_applied_insert :
    (1, false) ∈ ((init Unit).run (fun _ => {}) appliedInsert).acks ∧
      ¬ RecordDelivered (fun _ => {}) 0 ((init Unit).run (fun _ => {}) appliedInsert) := by
  refine ⟨by decide, ?_⟩
  rintro ⟨h, a, _, _, hd⟩
  have hpool : ((init Unit).run (fun _ => {}) appliedInsert).world.pushPool = [] := by decide
  have htask := hd.task
  rw [hpool] at htask
  cases htask

end Cluster

end NonokaIM
