import NonokaIM.Verification.Worker.Readers

/-! A message and its agent event are committed together. A transaction that is run again counts as
one call for each run. -/

namespace NonokaIM

open DocumentStore List Collection

/-! ## Calls -/

structure EventSave where
  isGroup : Bool
  now : Int
  msg : UpstreamMessage
  msgID : Int
  topicSeq : ℕ
  fault : SaveFault := .none
  tx : TxFault := .none

namespace EventSave

variable (sha256Hex : String → String) (c d : EventSave)

def event : MessageEvent := newMessageEvent sha256Hex c.msgID c.msg

def apply (s : Store) : Except String Bool × Store :=
  if c.isGroup then
    saveGroupMessageWithAgentEvent c.now c.msg c.msgID c.topicSeq (c.event sha256Hex) c.fault c.tx s
  else
    let r := saveP2PMessageWithAgentEvent c.now c.msg c.msgID c.topicSeq (c.event sha256Hex)
      c.fault c.tx s
    (r.1.map Prod.snd, r.2)

def applyAll : List EventSave → Store → Store
  | [], s => s
  | c :: cs, s => applyAll cs (c.apply sha256Hex s).2

def inboxRows : List InboxMessage :=
  if c.isGroup then []
  else
    match extractUserIDsFromP2PTopic c.msg.topic with
    | .ok (uid1, uid2) => p2pRows c.now c.msg c.msgID c.topicSeq (receiverOf c.msg uid1 uid2)
    | .error _ => []

def messageRows : List StoredMessage :=
  if c.isGroup then [newStoredMessage c.now c.msg c.msgID c.topicSeq] else []

/-- Between the two stores the rows of the message were added, and no other message. -/
def NewlyStored (s s' : Store) : Prop :=
  (c.inboxRows ≠ [] ∨ c.messageRows ≠ []) ∧
    s'.inboxes.rows = s.inboxes.rows ++ c.inboxRows ∧
    s'.messages.rows = s.messages.rows ++ c.messageRows

/-- The message of the call is new to the store `s`, and the call stores it. -/
def NewlyStores (s : Store) : Prop := c.NewlyStored s (c.apply sha256Hex s).2

/-- The two calls deliver one message of the sender. -/
def SameMessage : Prop :=
  c.isGroup = d.isGroup ∧ c.msg.senderID = d.msg.senderID ∧
    c.msg.clientMsgID = d.msg.clientMsgID ∧ d.msg.clientMsgID ≠ ""

end EventSave

def Store.eventIDs (s : Store) : List String := s.agentOutbox.rows.map (·.eventID)

def Store.SameRows (s s' : Store) : Prop :=
  s'.inboxes = s.inboxes ∧ s'.messages = s.messages ∧ s'.agentOutbox = s.agentOutbox

theorem Store.nodup_eventIDs (s : Store) : s.eventIDs.Nodup := by
  refine pairwise_map.mpr (s.agentOutbox.unique.imp ?_)
  intro a b hfree heq
  exact hfree ⟨a.eventID, mem_singleton_self _, by simp [outboxKeys, heq]⟩

theorem blocked_outboxKeys_iff {rows : List AgentEventOutbox} {r : AgentEventOutbox} :
    Blocked outboxKeys rows r ↔ r.eventID ∈ rows.map (·.eventID) := by
  simp [Blocked, Conflict, outboxKeys, eq_comm]

section

variable {now : Int} {msg : UpstreamMessage} {msgID : Int} {topicSeq : ℕ} {fault : SaveFault}
  {s : Store}

theorem saveP2PMessage_fresh_rows {uid1 uid2 : Int} {r : List Int × Bool}
    (hx : extractUserIDsFromP2PTopic msg.topic = .ok (uid1, uid2))
    (h : (saveP2PMessage now msg msgID topicSeq fault s).1 = .ok r) (hr : r.2 = false) :
    (saveP2PMessage now msg msgID topicSeq fault s).2.inboxes.rows =
      s.inboxes.rows ++ p2pRows now msg msgID topicSeq (receiverOf msg uid1 uid2) := by
  obtain ⟨hins, hdup⟩ := saveP2PMessage_ok hx h
  rw [hins]
  apply rows_of_all_stored
  rw [hdup] at hr
  intro f hf
  simpa using any_eq_false.mp hr f hf

theorem saveGroupMessage_fresh_rows
    (h : (saveGroupMessage now msg msgID topicSeq fault s).1 = .ok false) :
    (saveGroupMessage now msg msgID topicSeq fault s).2.messages.rows =
      s.messages.rows ++ [newStoredMessage now msg msgID topicSeq] := by
  rw [saveGroupMessage_result] at h
  rw [saveGroupMessage_store]
  rcases insertOne_cases s.messages fault.insert (newStoredMessage now msg msgID topicSeq) with
    ⟨_, hfree, hins⟩ | ⟨hr, _, _⟩ | ⟨hr, _⟩
  · rw [hins, rows_insert_of_not_blocked hfree]
  · rw [hr] at h
    cases h
  · rw [hr] at h
    cases h

end

namespace EventSave

variable {sha256Hex : String → String} {c d : EventSave} {s : Store}

/-- What a call does whose commit is not lost: it stores message and event and says so, or it
stores neither and reports a duplicate or an error. -/
inductive Effect (sha256Hex : String → String) (c : EventSave) (s : Store) : Prop
  | stored (result : (c.apply sha256Hex s).1 = .ok false) (rows : c.NewlyStores sha256Hex s)
      (free : (c.event sha256Hex).eventID ∉ s.eventIDs)
      (outbox : (c.apply sha256Hex s).2.agentOutbox.rows =
        s.agentOutbox.rows ++ [.new c.now (c.event sha256Hex)])
  | kept (result : (c.apply sha256Hex s).1 ≠ .ok false)
      (rows : s.SameRows (c.apply sha256Hex s).2)

theorem effect_of_withAgentEvent {α : Type} (label : String) (isDuplicate : α → Bool)
    (save : Store → Except String α × Store) (happly : c.apply sha256Hex s =
      ((withAgentEvent c.now (c.event sha256Hex) c.tx label isDuplicate save s).1.map isDuplicate,
        (withAgentEvent c.now (c.event sha256Hex) c.tx label isDuplicate save s).2))
    (hnew : ∀ a, (save s).1 = .ok a → isDuplicate a = false → c.NewlyStored s (save s).2)
    (hsame : (save s).2.agentOutbox = s.agentOutbox) (hcommit : c.tx.commit ≠ .lost) :
    c.Effect sha256Hex s := by
  rcases withAgentEvent_spec c.now s (c.event sha256Hex) c.tx label isDuplicate save with
    ⟨cache, hstore, hresult⟩ | ⟨a, ha, hfresh, ⟨_, hfree⟩, happlied, hstore, hresult⟩
  · rw [hstore] at happly
    refine .kept ?_ ?_
    · rw [happly]
      intro hok
      obtain ⟨a, ha, hfalse⟩ := map_eq_ok.mp hok
      have hdup := (hresult a ha).2
      rw [hfalse] at hdup
      cases hdup
    · rw [happly]
      exact ⟨rfl, rfl, rfl⟩
  · rw [hstore, hresult] at happly
    rw [hsame] at hfree happly
    cases hc : c.tx.commit with
    | failed =>
      rw [hc] at happlied
      cases happlied
    | lost => exact absurd hc hcommit
    | none =>
      refine .stored ?_ ?_ ?_ ?_
      · simp [happly, hc, CallFault.reported, Except.map, hfresh]
      · unfold NewlyStores
        rw [happly]
        exact hnew a ha hfresh
      · rw [blocked_outboxKeys_iff] at hfree
        exact hfree
      · rw [happly]
        exact rows_insert_of_not_blocked hfree

theorem newlyStored_p2p (hc : c.isGroup = false) {r : List Int × Bool}
    (h : (saveP2PMessage c.now c.msg c.msgID c.topicSeq c.fault s).1 = .ok r) (hr : r.2 = false) :
    c.NewlyStored s (saveP2PMessage c.now c.msg c.msgID c.topicSeq c.fault s).2 := by
  cases hx : extractUserIDsFromP2PTopic c.msg.topic with
  | error e =>
    rw [saveP2PMessage_error hx] at h
    cases h
  | ok uids =>
    have hrows : c.inboxRows =
        p2pRows c.now c.msg c.msgID c.topicSeq (receiverOf c.msg uids.1 uids.2) := by
      simp [inboxRows, hc, hx]
    have hnone : c.messageRows = [] := by simp [messageRows, hc]
    refine ⟨.inl ?_, ?_, ?_⟩
    · simp [hrows, p2pRows]
    · rw [hrows]
      exact saveP2PMessage_fresh_rows hx h hr
    · rw [hnone, append_nil, saveP2PMessage_store hx]

theorem newlyStored_group (hc : c.isGroup = true)
    (h : (saveGroupMessage c.now c.msg c.msgID c.topicSeq c.fault s).1 = .ok false) :
    c.NewlyStored s (saveGroupMessage c.now c.msg c.msgID c.topicSeq c.fault s).2 := by
  have hrows : c.messageRows = [newStoredMessage c.now c.msg c.msgID c.topicSeq] := by
    simp [messageRows, hc]
  have hnone : c.inboxRows = [] := by simp [inboxRows, hc]
  refine ⟨.inr ?_, ?_, ?_⟩
  · simp [hrows]
  · rw [hnone, append_nil, saveGroupMessage_store]
  · rw [hrows]
    exact saveGroupMessage_fresh_rows h

theorem effect (hcommit : c.tx.commit ≠ .lost) : c.Effect sha256Hex s := by
  cases hc : c.isGroup with
  | false =>
    apply effect_of_withAgentEvent "persist p2p message and agent event: " Prod.snd
      (saveP2PMessage c.now c.msg c.msgID c.topicSeq c.fault)
    · simp [apply, hc, saveP2PMessageWithAgentEvent]
    · intro r hr hfresh
      exact newlyStored_p2p hc hr hfresh
    · cases hx : extractUserIDsFromP2PTopic c.msg.topic with
      | error e => rw [saveP2PMessage_error hx]
      | ok uids => exact saveP2PMessage_agentOutbox hx c.fault
    · exact hcommit
  | true =>
    apply effect_of_withAgentEvent "persist group message and agent event: " id
      (saveGroupMessage c.now c.msg c.msgID c.topicSeq c.fault)
    · simp [apply, hc, saveGroupMessageWithAgentEvent, Except.map_id]
    · intro dup hdup hfresh
      subst hfresh
      exact newlyStored_group hc hdup
    · rw [saveGroupMessage_store]
    · exact hcommit

theorem Effect.newlyStores_iff (h : c.Effect sha256Hex s) :
    c.NewlyStores sha256Hex s ↔ (c.apply sha256Hex s).1 = .ok false := by
  cases h with
  | stored result rows _ _ => simp [result, rows]
  | kept result rows =>
    refine ⟨?_, fun hok => absurd hok result⟩
    intro ⟨hsome, hinboxes, hmessages⟩
    rw [rows.1, self_eq_append_right] at hinboxes
    rw [rows.2.1, self_eq_append_right] at hmessages
    simp [hinboxes, hmessages] at hsome

theorem Effect.mem_eventIDs_iff (h : c.Effect sha256Hex s) (id : String) :
    id ∈ (c.apply sha256Hex s).2.eventIDs ↔
      id ∈ s.eventIDs ∨ (c.NewlyStores sha256Hex s ∧ (c.event sha256Hex).eventID = id) := by
  rw [h.newlyStores_iff]
  cases h with
  | stored result _ _ outbox =>
    simp [Store.eventIDs, outbox, result, AgentEventOutbox.new, eq_comm]
  | kept result rows =>
    simp [Store.eventIDs, rows.2.2, result]

/-! ## What a sequence of calls does -/

theorem applyAll_append (as bs : List EventSave) (s : Store) :
    applyAll sha256Hex (as ++ bs) s = applyAll sha256Hex bs (applyAll sha256Hex as s) := by
  induction as generalizing s with
  | nil => rfl
  | cons c as ih => exact ih _

def Within (s s' : Store) : Prop :=
  s.inboxes.rows ⊆ s'.inboxes.rows ∧ s.messages.rows ⊆ s'.messages.rows ∧
    s.eventIDs ⊆ s'.eventIDs

theorem Effect.within (h : c.Effect sha256Hex s) : Within s (c.apply sha256Hex s).2 := by
  refine ⟨?_, ?_, fun id hid => (h.mem_eventIDs_iff id).mpr (.inl hid)⟩
  · cases h with
    | stored _ rows _ _ =>
      rw [rows.2.1]
      exact subset_append_left _ _
    | kept _ rows =>
      rw [rows.1]
      exact Subset.refl _
  · cases h with
    | stored _ rows _ _ =>
      rw [rows.2.2]
      exact subset_append_left _ _
    | kept _ rows =>
      rw [rows.2.1]
      exact Subset.refl _

theorem within_applyAll (cs : List EventSave) (s : Store)
    (hknown : ∀ c ∈ cs, c.tx.commit ≠ .lost) : Within s (applyAll sha256Hex cs s) := by
  induction cs generalizing s with
  | nil => exact ⟨Subset.refl _, Subset.refl _, Subset.refl _⟩
  | cons c cs ih =>
    have hfirst : Within s (c.apply sha256Hex s).2 := (effect (hknown c (by simp))).within
    have hrest := ih (c.apply sha256Hex s).2 (fun d hd => hknown d (by simp [hd]))
    exact ⟨Subset.trans hfirst.1 hrest.1, Subset.trans hfirst.2.1 hrest.2.1,
      Subset.trans hfirst.2.2 hrest.2.2⟩

def StoresIn (sha256Hex : String → String) (s : Store) (cs : List EventSave) (c : EventSave) :
    Prop :=
  ∃ pre post, cs = pre ++ c :: post ∧ c.NewlyStores sha256Hex (applyAll sha256Hex pre s)

theorem storesIn_nil : ¬ StoresIn sha256Hex s [] c := by
  intro ⟨pre, post, heq, _⟩
  simp at heq

theorem storesIn_cons {cs : List EventSave} :
    StoresIn sha256Hex s (c :: cs) d ↔
      (d = c ∧ c.NewlyStores sha256Hex s) ∨ StoresIn sha256Hex (c.apply sha256Hex s).2 cs d := by
  constructor
  · intro ⟨pre, post, heq, hnew⟩
    cases pre with
    | nil =>
      obtain ⟨rfl, rfl⟩ := cons.inj heq
      exact .inl ⟨rfl, hnew⟩
    | cons a pre =>
      obtain ⟨rfl, rfl⟩ := cons.inj heq
      exact .inr ⟨pre, post, rfl, hnew⟩
  · intro h
    rcases h with ⟨rfl, hnew⟩ | ⟨pre, post, rfl, hnew⟩
    · exact ⟨[], cs, rfl, hnew⟩
    · exact ⟨c :: pre, post, rfl, hnew⟩

theorem mem_eventIDs_applyAll_iff (cs : List EventSave) (s : Store)
    (hknown : ∀ c ∈ cs, c.tx.commit ≠ .lost) (id : String) :
    id ∈ (applyAll sha256Hex cs s).eventIDs ↔
      id ∈ s.eventIDs ∨ ∃ c, StoresIn sha256Hex s cs c ∧ (c.event sha256Hex).eventID = id := by
  induction cs generalizing s with
  | nil => simp [applyAll, storesIn_nil]
  | cons c cs ih =>
    have heffect : c.Effect sha256Hex s := effect (hknown c (by simp))
    have hfirst := heffect.mem_eventIDs_iff id
    rw [applyAll, ih _ (fun d hd => hknown d (by simp [hd])), hfirst]
    simp only [storesIn_cons, or_and_right, exists_or, or_assoc, and_assoc, exists_eq_left]

theorem sender_mem_inboxRows (hne : c.inboxRows ≠ []) :
    newInboxMessage c.now c.msg c.msgID c.topicSeq c.msg.senderID true ∈ c.inboxRows := by
  unfold inboxRows at hne ⊢
  split at hne
  · contradiction
  · split at hne
    · simp_all [p2pRows]
    · contradiction

theorem conflict_of_sameMessage (hsame : c.SameMessage d)
    (hc : c.inboxRows ≠ [] ∨ c.messageRows ≠ []) (hd : d.inboxRows ≠ [] ∨ d.messageRows ≠ []) :
    (∃ a ∈ c.inboxRows, ∃ b ∈ d.inboxRows, Conflict inboxKeys a b) ∨
      (∃ a ∈ c.messageRows, ∃ b ∈ d.messageRows, Conflict messageKeys a b) := by
  obtain ⟨hkind, hsender, hclient, hne⟩ := hsame
  cases hg : c.isGroup with
  | true =>
    have hg' : d.isGroup = true := hkind ▸ hg
    refine .inr ⟨newStoredMessage c.now c.msg c.msgID c.topicSeq, by simp [messageRows, hg],
      newStoredMessage d.now d.msg d.msgID d.topicSeq, by simp [messageRows, hg'], ?_⟩
    exact conflict_messageKeys.mpr (.inr ⟨hsender, hclient, hne⟩)
  | false =>
    have hg' : d.isGroup = false := hkind ▸ hg
    have hc' : c.inboxRows ≠ [] := by simpa [messageRows, hg] using hc
    have hd' : d.inboxRows ≠ [] := by simpa [messageRows, hg'] using hd
    refine .inl ⟨_, sender_mem_inboxRows hc', _, sender_mem_inboxRows hd', ?_⟩
    exact conflict_inboxKeys.mpr ⟨hsender, .inr ⟨hclient, hne⟩⟩

theorem not_sameMessage_of_stores {pre mid : List EventSave}
    (hknown : ∀ x ∈ pre ++ c :: mid, x.tx.commit ≠ .lost) (hcommit : d.tx.commit ≠ .lost)
    (hc : c.NewlyStores sha256Hex (applyAll sha256Hex pre s))
    (hd : d.NewlyStores sha256Hex (applyAll sha256Hex (pre ++ c :: mid) s)) :
    (c.event sha256Hex).eventID ≠ (d.event sha256Hex).eventID ∧ ¬ c.SameMessage d := by
  rw [applyAll_append, applyAll] at hd
  have hkept : Within _ (applyAll sha256Hex mid _) :=
    within_applyAll mid (c.apply sha256Hex (applyAll sha256Hex pre s)).2
      (fun x hx => hknown x (by simp [hx]))
  generalize applyAll sha256Hex mid _ = later at hd hkept
  constructor
  · -- the event of the first call is in the outbox when the second one adds its own
    have hfirst : c.Effect sha256Hex (applyAll sha256Hex pre s) := effect (hknown c (by simp))
    have hmem := hkept.2.2 ((hfirst.mem_eventIDs_iff _).mpr (.inr ⟨hc, rfl⟩))
    intro heq
    rw [heq] at hmem
    cases (effect hcommit : d.Effect sha256Hex later) with
    | stored _ _ free _ => exact free hmem
    | kept result rows =>
      exact result ((Effect.kept result rows).newlyStores_iff.mp hd)
  · intro hsame
    obtain ⟨hsomec, hinboxc, hmessagec⟩ := hc
    obtain ⟨hsomed, hinboxd, hmessaged⟩ := hd
    rcases conflict_of_sameMessage hsame hsomec hsomed with
      ⟨a, ha, b, hb, hconflict⟩ | ⟨a, ha, b, hb, hconflict⟩
    · have hold : a ∈ later.inboxes.rows := hkept.1 (by simp [hinboxc, ha])
      have hunique := (d.apply sha256Hex later).2.inboxes.unique
      rw [hinboxd, pairwise_append] at hunique
      exact hunique.2.2 a hold b hb hconflict
    · have hold : a ∈ later.messages.rows := hkept.2.1 (by simp [hmessagec, ha])
      have hunique := (d.apply sha256Hex later).2.messages.unique
      rw [hmessaged, pairwise_append] at hunique
      exact hunique.2.2 a hold b hb hconflict

end EventSave

open EventSave in
/-- Over any sequence of transactional saves whose commits have a known outcome, the outbox
gains exactly the events of the calls that stored a new message; a call that reports a
duplicate or an error changes neither messages nor outbox; no event is in the outbox twice,
and two calls that store a message have different events and are not for the same message. -/
theorem message_and_event_commit_together (sha256Hex : String → String) (calls : List EventSave)
    (s : Store) (hknown : ∀ c ∈ calls, c.tx.commit ≠ .lost) :
    (∀ id, id ∈ (applyAll sha256Hex calls s).eventIDs ↔
      id ∈ s.eventIDs ∨
        ∃ c, StoresIn sha256Hex s calls c ∧ (c.event sha256Hex).eventID = id) ∧
    (∀ pre c post, calls = pre ++ c :: post →
      (c.apply sha256Hex (applyAll sha256Hex pre s)).1 ≠ .ok false →
      (applyAll sha256Hex pre s).SameRows (c.apply sha256Hex (applyAll sha256Hex pre s)).2) ∧
    (applyAll sha256Hex calls s).eventIDs.Nodup ∧
    (∀ pre c mid d post, calls = pre ++ c :: mid ++ d :: post →
      c.NewlyStores sha256Hex (applyAll sha256Hex pre s) →
      d.NewlyStores sha256Hex (applyAll sha256Hex (pre ++ c :: mid) s) →
      (c.event sha256Hex).eventID ≠ (d.event sha256Hex).eventID ∧ ¬ c.SameMessage d) := by
  refine ⟨mem_eventIDs_applyAll_iff calls s hknown, ?_, Store.nodup_eventIDs _, ?_⟩
  · intro pre c post heq hresult
    have hcommit : c.tx.commit ≠ .lost := hknown c (by simp [heq])
    cases (effect hcommit : c.Effect sha256Hex (applyAll sha256Hex pre s)) with
    | stored result _ _ _ => exact absurd result hresult
    | kept _ rows => exact rows
  · intro pre c mid d post heq hc hd
    refine not_sameMessage_of_stores ?_ (hknown d (by simp [heq])) hc hd
    intro x hx
    exact hknown x (by simp [heq] at hx ⊢; tauto)

def threeSaves : List EventSave :=
  [{ isGroup := true, now := 1, msgID := 10, topicSeq := 1,
     msg := { topic := "grp_1", senderID := 7, clientMsgID := "a" } },
   { isGroup := true, now := 2, msgID := 11, topicSeq := 2,
     msg := { topic := "grp_1", senderID := 7, clientMsgID := "a" } },
   { isGroup := true, now := 3, msgID := 12, topicSeq := 3,
     msg := { topic := "grp_1", senderID := 7, clientMsgID := "b" },
     tx := { outbox := .refuseAll } }]

theorem threeSaves_one_event :
    (EventSave.applyAll id threeSaves {}).eventIDs = ["10:grp_1:7"] ∧
    (EventSave.applyAll id threeSaves {}).messages.rows.length = 1 ∧
    (∀ i, i ∈ (EventSave.applyAll id threeSaves {}).eventIDs ↔
      i ∈ ({} : Store).eventIDs ∨
        ∃ c, EventSave.StoresIn id {} threeSaves c ∧ (c.event id).eventID = i) := by
  refine ⟨by decide, by decide, ?_⟩
  exact (message_and_event_commit_together id threeSaves {} (by decide)).1

end NonokaIM
