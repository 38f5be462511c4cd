import NonokaIM.Library.GuardedRun
import NonokaIM.Model.Outbox

/-! # Relays that share the outbox

A relay whose lease is over may still mark a row that another one holds, but only for a payload that
was published. -/

namespace NonokaIM

open DocumentStore GuardedRun Collection OutboxState CallFault List Function

structure RowKept (r r' : AgentEventOutbox) : Prop where
  eventID : r'.eventID = r.eventID
  payload : r'.payload = r.payload
  published : r.status = .published → r' = r

theorem RowKept.refl (r : AgentEventOutbox) : RowKept r r := ⟨rfl, rfl, fun _ => rfl⟩

theorem RowKept.trans {a b c : AgentEventOutbox} (hab : RowKept a b) (hbc : RowKept b c) :
    RowKept a c where
  eventID := hbc.eventID.trans hab.eventID
  payload := hbc.payload.trans hab.payload
  published := by
    intro ha
    have hb : b = a := hab.published ha
    subst hb
    exact hbc.published ha

def RowsKept (c c' : Collection outboxKeys) : Prop :=
  ∀ r ∈ c.rows, ∃ r' ∈ c'.rows, RowKept r r'

theorem RowsKept.refl (c : Collection outboxKeys) : RowsKept c c :=
  fun r hr => ⟨r, hr, .refl r⟩

variable {c : Collection outboxKeys} {r : AgentEventOutbox}

theorem RowsKept.trans {a b : Collection outboxKeys} (hab : RowsKept a b) (hbc : RowsKept b c) :
    RowsKept a c := by
  intro r hr
  obtain ⟨r₁, hr₁, h₁⟩ := hab r hr
  obtain ⟨r₂, hr₂, h₂⟩ := hbc r₁ hr₁
  exact ⟨r₂, hr₂, h₁.trans h₂⟩

theorem rowsKept_of_subset {c' : Collection outboxKeys} (h : c.rows ⊆ c'.rows) : RowsKept c c' :=
  fun r hr => ⟨r, h hr, .refl r⟩

theorem rowsKept_update {p : AgentEventOutbox → Bool} {u : Update outboxKeys}
    (hp : ∀ r, p r = true → r.status ≠ .published) (hid : ∀ r, (u.set r).eventID = r.eventID)
    (hpayload : ∀ r, (u.set r).payload = r.payload) : RowsKept c (c.update p u) := by
  intro r hr
  refine ⟨_, mem_update.mpr ⟨r, hr, rfl⟩, ?_⟩
  cases hpr : p r with
  | true => exact ⟨hid r, hpayload r, fun hpub => absurd hpub (hp r hpr)⟩
  | false => exact .refl r

/-- A published row was published; every other row has the date from which it can be claimed. -/
structure RowOk (published : List MessageEvent) (r : AgentEventOutbox) : Prop where
  published : r.status = .published → r.payload ∈ published
  pending : r.status = .pending → r.nextAttemptAt.isSome = true
  processing : r.status = .processing → r.lockedUntil.isSome = true

theorem RowOk.mono {published published' : List MessageEvent} (h : RowOk published r)
    (hsub : published ⊆ published') : RowOk published' r :=
  ⟨fun hr => hsub (h.published hr), h.pending, h.processing⟩

theorem RowOk.claimable {published : List MessageEvent} (h : RowOk published r)
    (hr : r.status ≠ .published) : ∃ t, ∀ now, t ≤ now → r.claimable now = true := by
  cases hs : r.status with
  | pending =>
    obtain ⟨t, ht⟩ := Option.isSome_iff_exists.mp (h.pending hs)
    refine ⟨t, ?_⟩
    intro now hnow
    simp [AgentEventOutbox.claimable, hs, ht, hnow]
  | processing =>
    obtain ⟨t, ht⟩ := Option.isSome_iff_exists.mp (h.processing hs)
    refine ⟨t + 1, ?_⟩
    intro now hnow
    have hlt : t < now := by omega
    simp [AgentEventOutbox.claimable, hs, ht, hlt]
  | published => exact absurd hs hr

theorem claimable_ne_published {now : Int} (h : r.claimable now = true) :
    r.status ≠ .published := by
  intro hr
  simp [AgentEventOutbox.claimable, hr] at h

theorem held_ne_published {eventID : String} (h : r.held eventID = true) :
    r.status ≠ .published := by
  intro hr
  simp [AgentEventOutbox.held, hr] at h

section

variable (now : Int) (outbox : Collection outboxKeys) {published : List MessageEvent}

theorem rowsKept_claim (pick : String) : RowsKept outbox (claimAgentEvent now pick outbox).2 := by
  unfold claimAgentEvent
  dsimp only
  split
  · exact .refl outbox
  apply rowsKept_update
  · intro r hr
    exact claimable_ne_published (of_decide_eq_true hr).2
  · exact fun _ => rfl
  · exact fun _ => rfl

theorem rowsKept_mark (eventID : String) :
    RowsKept outbox (markAgentEventPublished now eventID outbox) :=
  rowsKept_update (fun _ => held_ne_published) (fun _ => rfl) (fun _ => rfl)

theorem rowsKept_fail (eventID err : String) (backoff : Int) :
    RowsKept outbox (failAgentEvent now eventID err backoff outbox) :=
  rowsKept_update (fun _ => held_ne_published) (fun _ => rfl) (fun _ => rfl)

variable {outbox} (h : ∀ r ∈ outbox.rows, RowOk published r)
include h

theorem rowsOk_claim (pick : String) :
    ∀ r ∈ (claimAgentEvent now pick outbox).2.rows, RowOk published r := by
  unfold claimAgentEvent
  dsimp only
  split
  · exact h
  · refine forall_update.mpr ?_
    intro r hr
    exact ⟨fun _ => ⟨nofun, nofun, fun _ => rfl⟩, fun _ => h r hr⟩

theorem rowsOk_fail (eventID err : String) (backoff : Int) :
    ∀ r ∈ (failAgentEvent now eventID err backoff outbox).rows, RowOk published r := by
  refine forall_update.mpr ?_
  intro r hr
  exact ⟨fun _ => ⟨nofun, fun _ => rfl, nofun⟩, fun _ => h r hr⟩

theorem rowsOk_mark {eventID : String}
    (hpub : ∀ r ∈ outbox.rows, r.eventID = eventID → r.payload ∈ published) :
    ∀ r ∈ (markAgentEventPublished now eventID outbox).rows, RowOk published r := by
  refine forall_update.mpr ?_
  intro r hr
  refine ⟨?_, fun _ => h r hr⟩
  intro hheld
  exact ⟨fun _ => hpub r hr (of_decide_eq_true hheld).1, nofun, nofun⟩

end

theorem mem_of_claimed {now : Int} {pick : String} {outbox : Collection outboxKeys}
    {row : AgentEventOutbox} (h : (claimAgentEvent now pick outbox).1 = some row) :
    ∃ r ∈ outbox.rows, r.eventID = row.eventID ∧ r.payload = row.payload := by
  have hsub : ∀ r ∈ oldestClaimable now outbox, r ∈ outbox.rows := by
    intro r hr
    exact mem_of_mem_filter (mem_of_mem_filter hr)
  unfold claimAgentEvent at h
  dsimp only at h
  split at h
  · cases h
  rename_i r hchosen
  cases h
  refine ⟨r, hsub r ?_, rfl, rfl⟩
  cases hfind : (oldestClaimable now outbox).find? (·.eventID = pick) with
  | some x =>
    rw [hfind] at hchosen
    cases hchosen
    exact mem_of_find?_eq_some hfind
  | none =>
    rw [hfind] at hchosen
    exact mem_of_mem_head? hchosen

/-- A relay holds a row of the outbox, and marks it only when its payload was published. -/
def RelayPhase.Ok (outbox : Collection outboxKeys) (published : List MessageEvent) :
    RelayPhase → Prop
  | .publishing row _ _ => ∃ r ∈ outbox.rows, r.eventID = row.eventID ∧ r.payload = row.payload
  | .marking row _ _ =>
    (∃ r ∈ outbox.rows, r.eventID = row.eventID ∧ r.payload = row.payload) ∧
      row.payload ∈ published
  | _ => True

theorem RelayPhase.Ok.mono {outbox outbox' : Collection outboxKeys}
    {published published' : List MessageEvent} {phase : RelayPhase}
    (h : phase.Ok outbox published) (hrows : RowsKept outbox outbox')
    (hsub : published ⊆ published') : phase.Ok outbox' published' := by
  have hkept : ∀ row : AgentEventOutbox,
      (∃ r ∈ outbox.rows, r.eventID = row.eventID ∧ r.payload = row.payload) →
        ∃ r ∈ outbox'.rows, r.eventID = row.eventID ∧ r.payload = row.payload := by
    rintro row ⟨r, hr, hid, hpayload⟩
    obtain ⟨r', hr', hk⟩ := hrows r hr
    exact ⟨r', hr', hk.eventID.trans hid, hk.payload.trans hpayload⟩
  cases phase with
  | idle | claiming left backoff | failing row err backoff => trivial
  | publishing row left backoff => exact hkept row h
  | marking row left backoff => exact ⟨hkept row h.1, hsub h.2⟩

structure OutboxOk {ι : Type} (s : OutboxState ι) : Prop where
  rows : ∀ r ∈ s.store.agentOutbox.rows, RowOk s.published r
  relays : ∀ i, (s.relays i).Ok s.store.agentOutbox s.published

structure StepOk {ι : Type} (s s' : OutboxState ι) : Prop where
  kept : RowsKept s.store.agentOutbox s'.store.agentOutbox
  ok : OutboxOk s → OutboxOk s'

section

variable {ι : Type} [DecidableEq ι] {s : OutboxState ι}

variable {phase : RelayPhase} {row : AgentEventOutbox} {backoff : Int}
  {outbox : Collection outboxKeys} (i : ι)

theorem OutboxOk.relays_update (h : OutboxOk s)
    {published : List MessageEvent} (hkept : RowsKept s.store.agentOutbox outbox)
    (hsub : s.published ⊆ published) (hphase : phase.Ok outbox published) (j : ι) :
    (update s.relays i phase j).Ok outbox published := by
  by_cases hj : j = i
  · subst hj
    rwa [update_self]
  · rw [update_of_ne hj]
    exact (h.relays j).mono hkept hsub

theorem stepOk_setRelay (hphase : OutboxOk s → phase.Ok s.store.agentOutbox s.published) :
    StepOk s (s.setRelay i phase) := by
  refine ⟨.refl _, fun h => ⟨h.rows, ?_⟩⟩
  exact h.relays_update i (.refl _) (Subset.refl _) (hphase h)

theorem stepOk_setOutbox (hkept : RowsKept s.store.agentOutbox outbox)
    (hrows : OutboxOk s → ∀ r ∈ outbox.rows, RowOk s.published r)
    (hphase : phase.Ok outbox s.published) : StepOk s ((s.setOutbox outbox).setRelay i phase) := by
  refine ⟨hkept, fun h => ⟨hrows h, ?_⟩⟩
  exact h.relays_update i hkept (Subset.refl _) hphase

omit [DecidableEq ι] in
theorem stepOk_enqueue (ev : MessageEvent) (fault : TxFault) :
    StepOk s { s with store := (enqueueAgentEvent s.now ev fault s.store).2.2 } := by
  have hinsert : (enqueueAgentEvent s.now ev fault s.store).2.2.agentOutbox = s.store.agentOutbox ∨
      (enqueueAgentEvent s.now ev fault s.store).2.2.agentOutbox =
        (insertOne s.store.agentOutbox fault.outbox (.new s.now ev)).1 := by
    unfold enqueueAgentEvent
    split
    · exact .inl rfl
    · refine .inr ?_
      dsimp only
      split <;> rfl
  have hsub : s.store.agentOutbox.rows ⊆
      (enqueueAgentEvent s.now ev fault s.store).2.2.agentOutbox.rows := by
    rcases hinsert with heq | heq <;> rw [heq]
    · exact Subset.refl _
    · exact subset_insertOne _ _ _
  refine ⟨rowsKept_of_subset hsub, ?_⟩
  intro h
  refine ⟨?_, fun i => (h.relays i).mono (rowsKept_of_subset hsub) (Subset.refl _)⟩
  intro r hr
  rcases hinsert with heq | heq
  · exact h.rows r (heq ▸ hr)
  · have hmem : r ∈ (insertOne s.store.agentOutbox fault.outbox (.new s.now ev)).1.rows := heq ▸ hr
    rcases mem_tryInsert hmem with hold | ⟨rfl, -⟩
    · exact h.rows r hold
    · exact ⟨nofun, fun _ => rfl, nofun⟩

theorem stepOk_claim (pick : String) (fault : CallFault) (left : ℕ) (backoff : Int) :
    StepOk s (s.claim i pick fault left backoff) := by
  have hkept := rowsKept_claim s.now s.store.agentOutbox pick
  have hclaimed : ∀ phase : RelayPhase,
      phase.Ok (claimAgentEvent s.now pick s.store.agentOutbox).2 s.published →
        StepOk s ((s.setOutbox (claimAgentEvent s.now pick s.store.agentOutbox).2).setRelay i
          phase) := by
    intro phase hphase
    exact stepOk_setOutbox i hkept (fun h => rowsOk_claim s.now h.rows pick) hphase
  cases fault with
  | failed => exact stepOk_setRelay i fun _ => trivial
  | lost => exact hclaimed .idle trivial
  | none =>
    cases hrow : (claimAgentEvent s.now pick s.store.agentOutbox).1 with
    | none =>
      have hs : s.claim i pick .none left backoff =
          (s.setOutbox (claimAgentEvent s.now pick s.store.agentOutbox).2).setRelay i .idle := by
        simp [claim, applied, reported, hrow]
      rw [hs]
      exact hclaimed .idle trivial
    | some row =>
      have hs : s.claim i pick .none left backoff =
          (s.setOutbox (claimAgentEvent s.now pick s.store.agentOutbox).2).setRelay i
            (.publishing row left backoff) := by
        simp [claim, applied, reported, hrow]
      rw [hs]
      apply hclaimed
      obtain ⟨r, hr, hid, hpayload⟩ := mem_of_claimed hrow
      obtain ⟨r', hr', hk⟩ := hkept r hr
      exact ⟨r', hr', hk.eventID.trans hid, hk.payload.trans hpayload⟩

theorem stepOk_publish (outcome : PublishOutcome) {left : ℕ}
    (hphase : s.relays i = .publishing row left backoff) :
    StepOk s (s.publish i outcome row left backoff) := by
  cases outcome with
  | undecodable err | failed err => exact stepOk_setRelay i fun _ => trivial
  | success =>
    have hsub : s.published ⊆ row.payload :: s.published := subset_cons_self _ _
    refine ⟨.refl _, fun h => ⟨fun r hr => (h.rows r hr).mono hsub, ?_⟩⟩
    have hrow := h.relays i
    rw [hphase] at hrow
    exact h.relays_update i (.refl _) hsub ⟨hrow, mem_cons_self⟩

omit [DecidableEq ι] in
theorem OutboxOk.payload_published (h : OutboxOk s) {i : ι} {left : ℕ}
    (hphase : s.relays i = .marking row left backoff) :
    ∀ r ∈ s.store.agentOutbox.rows, r.eventID = row.eventID → r.payload ∈ s.published := by
  intro r hr hid
  have hrelay := h.relays i
  rw [hphase] at hrelay
  obtain ⟨⟨x, hx, hxid, hxpayload⟩, hpub⟩ := hrelay
  have hsame : r = x := by
    apply s.store.agentOutbox.eq_of_conflict hr hx
    exact ⟨row.eventID, by simp [outboxKeys, hid], by simp [outboxKeys, hxid]⟩
  rw [hsame, hxpayload]
  exact hpub

theorem stepOk_mark (fault : CallFault) {left : ℕ}
    (hphase : s.relays i = .marking row left backoff) :
    StepOk s (s.mark i fault row left backoff) := by
  have hmarked : ∀ phase : RelayPhase,
      phase.Ok (markAgentEventPublished s.now row.eventID s.store.agentOutbox) s.published →
        StepOk s ((s.setOutbox (markAgentEventPublished s.now row.eventID
          s.store.agentOutbox)).setRelay i phase) := by
    intro phase hok
    refine stepOk_setOutbox i (rowsKept_mark s.now s.store.agentOutbox row.eventID) ?_ hok
    intro h
    exact rowsOk_mark s.now h.rows (h.payload_published hphase)
  cases fault with
  | failed => exact stepOk_setRelay i fun _ => trivial
  | lost => exact hmarked .idle trivial
  | none => exact hmarked (.claiming left backoff) trivial

theorem stepOk_fail (fault : CallFault) (row : AgentEventOutbox) (err : String)
    (backoff : Int) : StepOk s (s.fail i fault row err backoff) := by
  have hfailed : StepOk s ((s.setOutbox (failAgentEvent s.now row.eventID err backoff
      s.store.agentOutbox)).setRelay i .idle) := by
    refine stepOk_setOutbox i (rowsKept_fail s.now s.store.agentOutbox row.eventID err backoff) ?_
      trivial
    intro h
    exact rowsOk_fail s.now h.rows row.eventID err backoff
  cases fault with
  | failed => exact stepOk_setRelay i fun _ => trivial
  | lost | none => exact hfailed

theorem stepOk_advance (pick : String) (fault : CallFault) (outcome : PublishOutcome) :
    StepOk s (s.advance i pick fault outcome) := by
  unfold advance
  split
  · exact ⟨.refl _, id⟩
  · exact stepOk_setRelay i fun _ => trivial
  · exact stepOk_claim i pick fault _ _
  · rename_i hphase
    exact stepOk_publish i outcome hphase
  · rename_i hphase
    exact stepOk_mark i fault hphase
  · exact stepOk_fail i fault _ _ _

theorem outboxStep_ok (s : OutboxState ι) (op : OutboxOp ι) : StepOk s (outboxStep s op) := by
  cases op with
  | sleep d => exact ⟨.refl _, fun h => ⟨h.rows, h.relays⟩⟩
  | enqueue ev fault => exact stepOk_enqueue ev fault
  | start i limit retryBackoff =>
    simp only [outboxStep, start]
    split
    · exact stepOk_setRelay i fun _ => trivial
    · exact ⟨.refl _, id⟩
  | advance i pick fault outcome => exact stepOk_advance i pick fault outcome
  | crash i => exact stepOk_setRelay i fun _ => trivial

end

section

variable {ι : Type} [DecidableEq ι]

theorem rowsKept_run (s : OutboxState ι) (ops : List (OutboxOp ι)) :
    RowsKept s.store.agentOutbox (run outboxStep s ops).store.agentOutbox := by
  induction ops generalizing s with
  | nil => exact .refl _
  | cons op ops ih => exact (outboxStep_ok s op).kept.trans (ih (outboxStep s op))

omit [DecidableEq ι] in
theorem outboxOk_init : OutboxOk ({} : OutboxState ι) where
  rows := by
    intro r hr
    exact absurd hr (not_mem_nil)
  relays := fun _ => trivial

theorem outboxOk_run (ops : List (OutboxOp ι)) :
    OutboxOk (run outboxStep ({} : OutboxState ι) ops) :=
  invariant_run_all (fun s op h => (outboxStep_ok s op).ok h) ops outboxOk_init

/-- After any run a published row was published, every other row has its date and can be claimed
from then on, event ids are unique, and every row of an earlier moment is still there, unchanged
if it was published by then. -/
theorem outbox_safe (ops : List (OutboxOp ι)) :
    (∀ r ∈ (run outboxStep ({} : OutboxState ι) ops).store.agentOutbox.rows,
      (r.status = .published → r.payload ∈ (run outboxStep ({} : OutboxState ι) ops).published) ∧
      (r.status = .pending → r.nextAttemptAt.isSome = true) ∧
      (r.status = .processing → r.lockedUntil.isSome = true) ∧
      (r.status ≠ .published → ∃ t, ∀ now, t ≤ now → r.claimable now = true)) ∧
    ((run outboxStep ({} : OutboxState ι) ops).store.agentOutbox.rows.map
      AgentEventOutbox.eventID).Nodup ∧
    ∀ earlier, earlier <+: ops →
      ∀ r ∈ (run outboxStep ({} : OutboxState ι) earlier).store.agentOutbox.rows,
        ∃ r' ∈ (run outboxStep ({} : OutboxState ι) ops).store.agentOutbox.rows,
          r'.eventID = r.eventID ∧ r'.payload = r.payload ∧
            (r.status = .published → r'.status = .published) := by
  refine ⟨?_, ?_, ?_⟩
  · intro r hr
    have hok := (outboxOk_run ops).rows r hr
    exact ⟨hok.published, hok.pending, hok.processing, hok.claimable⟩
  · apply pairwise_map.mpr
    apply (run outboxStep ({} : OutboxState ι) ops).store.agentOutbox.unique.imp
    intro a b hab hid
    exact hab ⟨a.eventID, by simp [outboxKeys], by simp [outboxKeys, hid]⟩
  · rintro earlier ⟨later, rfl⟩ r hr
    rw [run_append]
    obtain ⟨r', hr', hk⟩ := rowsKept_run (run outboxStep {} earlier) later r hr
    refine ⟨r', hr', hk.eventID, hk.payload, ?_⟩
    intro hpub
    rw [hk.published hpub]
    exact hpub

end

end NonokaIM
