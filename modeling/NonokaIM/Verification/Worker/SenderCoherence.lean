import NonokaIM.Verification.Worker.SenderCache

/-! # Answers of the sender cache

A save fills the cache also when it stored nothing, and inside a transaction that may abort. -/

namespace NonokaIM

open DocumentStore GuardedRun SenderEvent List

variable {s : Store} {now : Int} {msg : UpstreamMessage} {msgID : Int} {topicSeq : ℕ}
  {fault : SaveFault} {uid1 uid2 : Int}

/-! ## Stale entries -/

/-- Both copies of a P2P message are taken, or a transaction does not commit after the save has
filled the cache; and no row of that topic and seq has the sender. -/
def StaleSave (s : Store) : SaveEvent → Prop
  | .p2p a fault =>
    ¬ s.HasSender a.msg.topic a.topicSeq a.msg.senderID ∧ fault.cacheFails 0 = false ∧
      fault.insert.Accepts 2 ∧
      ∃ uid1 uid2, extractUserIDsFromP2PTopic a.msg.topic = .ok (uid1, uid2) ∧
        ∀ r ∈ p2pRows a.now a.msg a.msgID a.topicSeq (receiverOf a.msg uid1 uid2),
          Blocked inboxKeys s.inboxes.rows r
  | .p2pWithEvent a ev fault tx =>
    ¬ s.HasSender a.msg.topic a.topicSeq a.msg.senderID ∧ fault.cacheFails 0 = false ∧
      fault.insert.Accepts 2 ∧ tx.session = false ∧
      ∃ uid1 uid2, extractUserIDsFromP2PTopic a.msg.topic = .ok (uid1, uid2) ∧
        (FreshCopies s (p2pRows a.now a.msg a.msgID a.topicSeq (receiverOf a.msg uid1 uid2)) →
          fault.insert.concern = false ∧ ¬ Commits a.now ev tx s.agentOutbox)
  | .groupWithEvent a ev fault tx =>
    ¬ s.HasSender a.msg.topic a.topicSeq a.msg.senderID ∧ fault.cacheFails 0 = false ∧
      fault.insert.Accepts 1 ∧ tx.session = false ∧ fault.insert.concern = false ∧
      ¬ Blocked messageKeys s.messages.rows (newStoredMessage a.now a.msg a.msgID a.topicSeq) ∧
      ¬ Commits a.now ev tx s.agentOutbox
  | _ => False

theorem cacheBacked_saveP2PMessage_iff (h : s.CacheBacked) (a : SaveArgs) :
    (saveP2PMessage a.now a.msg a.msgID a.topicSeq fault s).2.CacheBacked ↔
      ¬ StaleSave s (.p2p a fault) := by
  cases hx : extractUserIDsFromP2PTopic a.msg.topic with
  | error e =>
    rw [saveP2PMessage_error hx]
    refine iff_of_true h ?_
    rintro ⟨-, -, -, uid1, uid2, hok, -⟩
    rw [hx] at hok
    cases hok
  | ok uids =>
    obtain ⟨uid1, uid2⟩ := uids
    have hrows := cacheBacked_inboxes h (c := (p2pInsert a.now a.msg a.msgID a.topicSeq fault s
      (receiverOf a.msg uid1 uid2)).1) (Collection.subset_insertMany _ _ _)
    cases hv : (p2pInsert a.now a.msg a.msgID a.topicSeq fault s
        (receiverOf a.msg uid1 uid2)).2.verdict with
    | none =>
      rw [saveP2PMessage_eq hx rfl, hv]
      refine iff_of_true hrows ?_
      rintro ⟨-, -, haccepts, _, _, hok, hblocked⟩
      cases hx.symm.trans hok
      -- two copies that are taken count as a duplicate
      obtain ⟨dup, hdup⟩ := exists_p2pInsert_verdict haccepts fun hfresh =>
        absurd (hblocked _ mem_cons_self) (hfresh.1 _ mem_cons_self)
      rw [hv] at hdup
      cases hdup
    | some dup =>
      rw [saveP2PMessage_eq hx rfl, hv, cacheBacked_cacheMessageSender hrows,
        hasSender_p2pInsert hv]
      have haccepts := (p2pInsert_verdict_iff.mp hv).1
      constructor
      · rintro hafter ⟨hnone, hcached, -, _, _, hok, hblocked⟩
        cases hx.symm.trans hok
        rcases hafter hcached with hrow | ⟨r, hr, hfree⟩
        · exact hnone hrow
        · exact hfree (hblocked r hr)
      · intro hstale hcached
        by_contra hnone
        rw [not_or] at hnone
        refine hstale ⟨hnone.1, hcached, haccepts, uid1, uid2, hx, fun r hr => ?_⟩
        by_contra hfree
        exact hnone.2 ⟨r, hr, hfree⟩

theorem rollback_cacheMessageSender (during : Store) (h : during.senderCache = s.senderCache)
    (fails : Bool) (topic : String) (topicSeq : ℕ) (senderID : Int) :
    s.rollback (during.cacheMessageSender fails topic topicSeq senderID) =
      s.cacheMessageSender fails topic topicSeq senderID := by
  cases fails <;> simp [Store.rollback, Store.cacheMessageSender, h]

theorem rollback_of_senderCache {during : Store} (h : during.senderCache = s.senderCache) :
    s.rollback during = s := by
  rw [Store.rollback, h]

section

variable {ev : MessageEvent} {tx : TxFault}

section

variable {α : Type} {label : String} {isDuplicate : α → Bool}
  {save : Store → Except String α × Store}

theorem cacheBacked_withAgentEvent_of_cached (h : s.CacheBacked) (hsession : tx.session = false)
    {a : α} {during : Store} {fails : Bool} {topic : String} {senderID : Int}
    (hsave : save s = (.ok a, during.cacheMessageSender fails topic topicSeq senderID))
    (hcache : during.senderCache = s.senderCache) (houtbox : during.agentOutbox = s.agentOutbox)
    (hstored : isDuplicate a = false →
      (during.cacheMessageSender fails topic topicSeq senderID).CacheBacked) :
    (withAgentEvent now ev tx label isDuplicate save s).2.CacheBacked ↔
      (isDuplicate a = false ∧ Commits now ev tx s.agentOutbox) ∨
        (fails = false → s.HasSender topic topicSeq senderID) := by
  have houtbox' : (save s).2.agentOutbox = s.agentOutbox := by
    rw [hsave, ← houtbox]
    cases fails <;> rfl
  by_cases hcommit : isDuplicate a = false ∧ Commits now ev tx s.agentOutbox
  · obtain ⟨hdup, hcommits⟩ := hcommit
    rw [withAgentEvent_commit hsession (congrArg Prod.fst hsave) hdup
      (houtbox'.symm ▸ hcommits), hsave]
    exact iff_of_true (hstored hdup) (.inl ⟨hdup, hcommits⟩)
  · have hroll : ∀ b, (save s).1 = .ok b → isDuplicate b = false →
        ¬ Commits now ev tx (save s).2.agentOutbox := by
      intro b hb hdup
      rw [hsave] at hb
      cases hb
      rw [houtbox']
      exact fun hcommits => hcommit ⟨hdup, hcommits⟩
    rw [withAgentEvent_rollback hsession hroll, hsave, rollback_cacheMessageSender _ hcache,
      cacheBacked_cacheMessageSender h]
    exact (or_iff_right hcommit).symm

theorem cacheBacked_withAgentEvent_of_same (h : s.CacheBacked) (hsession : tx.session = false)
    (hnothing : ∀ a, (save s).1 = .ok a → isDuplicate a ≠ false)
    (hcache : (save s).2.senderCache = s.senderCache) :
    (withAgentEvent now ev tx label isDuplicate save s).2.CacheBacked := by
  rw [withAgentEvent_rollback hsession fun a ha hdup => absurd hdup (hnothing a ha),
    rollback_of_senderCache hcache]
  exact h

end

theorem cacheBacked_p2pWithEvent_of_verdict (h : s.CacheBacked) (hsession : tx.session = false)
    (hx : extractUserIDsFromP2PTopic msg.topic = .ok (uid1, uid2)) {dup : Bool}
    (hv : (p2pInsert now msg msgID topicSeq fault s (receiverOf msg uid1 uid2)).2.verdict =
      some dup) :
    (saveP2PMessageWithAgentEvent now msg msgID topicSeq ev fault tx s).2.CacheBacked ↔
      (dup = false ∧ Commits now ev tx s.agentOutbox) ∨
        (fault.cacheFails 0 = false → s.HasSender msg.topic topicSeq msg.senderID) := by
  have hsave : saveP2PMessage now msg msgID topicSeq fault s = _ := saveP2PMessage_eq hx rfl
  rw [hv] at hsave
  refine cacheBacked_withAgentEvent_of_cached h hsession hsave (by rfl) (by rfl) fun hdup => ?_
  have hfresh := (p2pInsert_verdict_iff.mp hv).2.1.mp hdup
  refine (cacheBacked_cacheMessageSender (cacheBacked_inboxes h
    (Collection.subset_insertMany _ _ _)) _).mpr fun _ => (hasSender_p2pInsert hv).mpr ?_
  exact .inr ⟨_, mem_cons_self, hfresh.1 _ mem_cons_self⟩

theorem cacheBacked_p2pWithEvent_of_error (h : s.CacheBacked) (hsession : tx.session = false)
    {e : String} {s₁ : Store} (hcache : s₁.senderCache = s.senderCache)
    (hsave : saveP2PMessage now msg msgID topicSeq fault s = (.error e, s₁)) :
    (saveP2PMessageWithAgentEvent now msg msgID topicSeq ev fault tx s).2.CacheBacked := by
  refine cacheBacked_withAgentEvent_of_same h hsession ?_ (by rw [hsave]; exact hcache)
  intro a ha
  rw [hsave] at ha
  cases ha

theorem cacheBacked_p2pWithEvent_iff (h : s.CacheBacked) (a : SaveArgs) :
    (saveP2PMessageWithAgentEvent a.now a.msg a.msgID a.topicSeq ev fault tx s).2.CacheBacked ↔
      ¬ StaleSave s (.p2pWithEvent a ev fault tx) := by
  cases hsession : tx.session with
  | true =>
    rw [saveP2PMessageWithAgentEvent, withAgentEvent_of_session hsession]
    refine iff_of_true h ?_
    rintro ⟨-, -, -, hopen, -⟩
    rw [hsession] at hopen
    cases hopen
  | false =>
    cases hx : extractUserIDsFromP2PTopic a.msg.topic with
    | error e =>
      refine iff_of_true
        (cacheBacked_p2pWithEvent_of_error h hsession rfl (saveP2PMessage_error hx)) ?_
      rintro ⟨-, -, -, -, uid1, uid2, hok, -⟩
      rw [hx] at hok
      cases hok
    | ok uids =>
      obtain ⟨uid1, uid2⟩ := uids
      cases hv : (p2pInsert a.now a.msg a.msgID a.topicSeq fault s
          (receiverOf a.msg uid1 uid2)).2.verdict with
      | none =>
        have hsave : saveP2PMessage a.now a.msg a.msgID a.topicSeq fault s = _ :=
          saveP2PMessage_eq hx rfl
        rw [hv] at hsave
        refine iff_of_true (cacheBacked_p2pWithEvent_of_error h hsession (by rfl) hsave) ?_
        rintro ⟨-, -, haccepts, -, _, _, hok, hfresh⟩
        cases hx.symm.trans hok
        obtain ⟨dup, hdup⟩ := exists_p2pInsert_verdict haccepts fun hf => (hfresh hf).1
        rw [hv] at hdup
        cases hdup
      | some dup =>
        rw [cacheBacked_p2pWithEvent_of_verdict h hsession hx hv]
        obtain ⟨haccepts, hdup, hconcern⟩ := p2pInsert_verdict_iff.mp hv
        constructor
        · rintro (⟨hd, hcommits⟩ | hrow) ⟨hnone, hcached, -, -, _, _, hok, hfresh⟩
          · cases hx.symm.trans hok
            exact (hfresh (hdup.mp hd)).2 hcommits
          · exact hnone (hrow hcached)
        · intro hstale
          by_contra hnot
          obtain ⟨hroll, hrow⟩ := not_or.mp hnot
          obtain ⟨hcached, hnone⟩ := Classical.not_imp.mp hrow
          refine hstale ⟨hnone, hcached, haccepts, hsession, uid1, uid2, hx, ?_⟩
          intro hfresh
          have hd := hdup.mpr hfresh
          exact ⟨hconcern hd, fun hcommits => hroll ⟨hd, hcommits⟩⟩

theorem cacheBacked_groupWithEvent_of_ok (h : s.CacheBacked) (hsession : tx.session = false)
    (hok : (insertOne s.messages fault.insert (newStoredMessage now msg msgID topicSeq)).2 = .ok) :
    (saveGroupMessageWithAgentEvent now msg msgID topicSeq ev fault tx s).2.CacheBacked ↔
      Commits now ev tx s.agentOutbox ∨
        (fault.cacheFails 0 = false → s.HasSender msg.topic topicSeq msg.senderID) := by
  have hsave : saveGroupMessage now msg msgID topicSeq fault s =
      (.ok false, ({ s with messages := (insertOne s.messages fault.insert
          (newStoredMessage now msg msgID topicSeq)).1 } : Store).cacheMessageSender
        (fault.cacheFails 0) msg.topic topicSeq msg.senderID) := by
    simp only [saveGroupMessage, hok]
  have hbacked : (saveGroupMessage now msg msgID topicSeq fault s).2.CacheBacked :=
    cacheBacked_saveGroupMessage h
  rw [hsave] at hbacked
  rw [saveGroupMessageWithAgentEvent, cacheBacked_withAgentEvent_of_cached h hsession hsave rfl rfl
    fun _ => hbacked]
  exact or_congr_left (and_iff_right rfl)

theorem cacheBacked_groupWithEvent_of_not_ok (h : s.CacheBacked) (hsession : tx.session = false)
    (hr : (insertOne s.messages fault.insert (newStoredMessage now msg msgID topicSeq)).2 ≠ .ok) :
    (saveGroupMessageWithAgentEvent now msg msgID topicSeq ev fault tx s).2.CacheBacked := by
  refine cacheBacked_withAgentEvent_of_same h hsession ?_ ?_
  · rintro dup hdup hfalse
    obtain rfl : dup = false := hfalse
    rw [saveGroupMessage_result] at hdup
    split at hdup <;> simp_all
  · simp only [saveGroupMessage]
    split
    · rename_i hok
      exact absurd hok hr
    · rfl
    · rfl

theorem cacheBacked_groupWithEvent_iff (h : s.CacheBacked) (a : SaveArgs) :
    (saveGroupMessageWithAgentEvent a.now a.msg a.msgID a.topicSeq ev fault tx s).2.CacheBacked ↔
      ¬ StaleSave s (.groupWithEvent a ev fault tx) := by
  cases hsession : tx.session with
  | true =>
    rw [saveGroupMessageWithAgentEvent, withAgentEvent_of_session hsession]
    refine iff_of_true h ?_
    rintro ⟨-, -, -, hopen, -⟩
    rw [hsession] at hopen
    cases hopen
  | false =>
    by_cases hok : (insertOne s.messages fault.insert
        (newStoredMessage a.now a.msg a.msgID a.topicSeq)).2 = .ok
    · rw [cacheBacked_groupWithEvent_of_ok h hsession hok]
      obtain ⟨haccepts, hconcern, hfree⟩ := insertOne_ok_iff.mp hok
      constructor
      · rintro (hcommits | hrow) ⟨hnone, hcached, -, -, -, -, hroll⟩
        · exact hroll hcommits
        · exact hnone (hrow hcached)
      · intro hstale
        by_contra hnot
        obtain ⟨hroll, hrow⟩ := not_or.mp hnot
        obtain ⟨hcached, hnone⟩ := Classical.not_imp.mp hrow
        exact hstale ⟨hnone, hcached, haccepts, hsession, hconcern, hfree, hroll⟩
    · refine iff_of_true (cacheBacked_groupWithEvent_of_not_ok h hsession hok) ?_
      rintro ⟨-, -, haccepts, -, hconcern, hfree, -⟩
      exact hok (insertOne_ok_iff.mpr ⟨haccepts, hconcern, hfree⟩)

end

/-! ## Runs -/

theorem cacheBacked_apply_iff (h : s.CacheBacked) (e : SaveEvent) :
    (e.apply s).CacheBacked ↔ ¬ StaleSave s e := by
  cases e with
  | p2p a fault => exact cacheBacked_saveP2PMessage_iff h a
  | group a fault => exact iff_of_true (cacheBacked_saveGroupMessage h) not_false
  | system a fault => exact iff_of_true (cacheBacked_saveSystemMessage h) not_false
  | mentions a uids fault => exact iff_of_true (cacheBacked_saveMentionInbox h uids) not_false
  | batch now items fault => exact iff_of_true (cacheBacked_flush h fault) not_false
  | p2pWithEvent a ev fault tx => exact cacheBacked_p2pWithEvent_iff h a
  | groupWithEvent a ev fault tx => exact cacheBacked_groupWithEvent_iff h a
  | expire t q => exact iff_of_true (cacheBacked_expireSender h t q) not_false

def KeepsSenders (g : GatewayStorage) : SenderEvent → Prop
  | .save e => ¬ StaleSave g.toStore e
  | .getSender _ _ _ => True

theorem senderCoherent_step_iff {g : GatewayStorage} (h : SenderCoherent g) (e : SenderEvent) :
    SenderCoherent (e.step g) ↔ KeepsSenders g e := by
  rw [senderCoherent_iff_cacheBacked] at h ⊢
  cases e with
  | save e => exact cacheBacked_apply_iff h e
  | getSender env t q => exact iff_of_true (cacheBacked_getMessageSender h env t q) trivial

theorem senderCoherent_empty : SenderCoherent {} := by
  rw [senderCoherent_iff_cacheBacked]
  intro t q u hu
  cases hu

/-- `GetMessageSender` answers with the sender of a stored row in every state of a run exactly when
no save of the run leaves a cached sender without a row. -/
theorem senderCoherent_run_iff (es : List SenderEvent) :
    (∀ fs, fs <+: es → SenderCoherent (run step {} fs)) ↔
      Along step KeepsSenders {} es := by
  rw [good_always_iff_along, and_iff_right senderCoherent_empty]
  have hkeep : ∀ g e, SenderCoherent g → SenderCoherent (step g e) →
      SenderCoherent (step g e) := fun _ _ _ hstep => hstep
  exact along_congr (fun g e h => senderCoherent_step_iff h e) hkeep senderCoherent_empty

def deliveredTwice : List SenderEvent :=
  [.save (.p2p ⟨0, { senderID := 1, topic := "p2p_1_2", clientMsgID := "c1" }, 10, 1⟩ .none),
    .save (.p2p ⟨5, { senderID := 1, topic := "p2p_1_2", clientMsgID := "c1" }, 11, 2⟩ .none)]

theorem deliveredTwice_sender :
    (getMessageSender {} "p2p_1_2" 2 (run step {} deliveredTwice)).1 = .ok 1 ∧
      ¬ (run step {} deliveredTwice).HasSender "p2p_1_2" 2 1 := by
  decide

end NonokaIM
