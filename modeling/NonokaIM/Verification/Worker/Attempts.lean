import NonokaIM.Verification.Seq.Calls
import NonokaIM.Verification.Worker.SaveEffect

/-! # The steps of the workers

No two attempts have the same seq of a topic, and an attempt waits in the queue of one batcher at
most. -/

namespace NonokaIM.Cluster

open DocumentStore List Function SeqSystem

variable {ι : Type} [DecidableEq ι] {cfg : ι → WorkerConfig} {c c' : Cluster ι} {e : ClusterEvent ι}

/-! ## What one step can do -/

inductive Step (cfg : ι → WorkerConfig) (c : Cluster ι) : ClusterEvent ι → Cluster ι → Prop where
  | idle (e : ClusterEvent ι) : Step cfg c e c
  | refuse (i : ι) (record : ℕ) (msg : UpstreamMessage) (msgID : Int) (fault : CallFault)
      (err : String) (hn : (c.seqs.nextSeq i msg.topic fault).1 = .error err) :
      Step cfg c (.accept i record msg msgID fault)
        { c with seqs := (c.seqs.nextSeq i msg.topic fault).2 }
  | accept (i : ι) (record : ℕ) (msg : UpstreamMessage) (msgID : Int) (fault : CallFault)
      (topicSeq : ℕ) (hn : (c.seqs.nextSeq i msg.topic fault).1 = .ok topicSeq) :
      Step cfg c (.accept i record msg msgID fault)
        { c with
          seqs := (c.seqs.nextSeq i msg.topic fault).2
          attempts := c.attempts ++ [⟨record, i, msg, msgID, topicSeq⟩]
          stage := update c.stage c.attempts.length .numbered }
  | queue (h : ℕ) (a : Attempt ι) (now : Int) (fault : SaveFault) (tx : TxFault)
      (ha : c.attempts[h]? = some a) (hs : c.stage h = .numbered)
      (hb : batched (cfg a.process) a.msg = true) :
      Step cfg c (.save h now fault tx)
        { c with
          stage := update c.stage h .queued
          pending := update c.pending a.process (c.pending a.process ++ [h]) }
  | save (h : ℕ) (a : Attempt ι) (now : Int) (fault : SaveFault) (tx : TxFault)
      (ha : c.attempts[h]? = some a) (hs : c.stage h = .numbered)
      (hb : batched (cfg a.process) a.msg = false) :
      Step cfg c (.save h now fault tx)
        { c with
          world := { c.world with store := (NonokaIM.save (cfg a.process) now a.msg a.msgID
            a.topicSeq fault tx c.world.store).2 }
          stage := update c.stage h (Stage.ofResult (NonokaIM.save (cfg a.process) now
            a.msg a.msgID a.topicSeq fault tx c.world.store).1) }
  | flush (i : ι) (now : Int) (fault : SaveFault) (dup : Bool)
      (hv : batchVerdict (c.items (c.pending i)).length
        (saveGroupMessagesBatch now (c.items (c.pending i)) fault c.world.store).1 = some dup) :
      Step cfg c (.flush i now fault)
        { c with
          world := { c.world with store :=
            (saveGroupMessagesBatch now (c.items (c.pending i)) fault c.world.store).2 }
          pending := update c.pending i []
          stage := (c.pending i).foldl (fun stage h => resolve stage h (.ok dup)) c.stage }
  | fallBack (i : ι) (now : Int) (fault : SaveFault)
      (hv : batchVerdict (c.items (c.pending i)).length
        (saveGroupMessagesBatch now (c.items (c.pending i)) fault c.world.store).1 = none) :
      Step cfg c (.flush i now fault)
        { c with
          world := { c.world with store :=
            (saveGroupMessagesBatch now (c.items (c.pending i)) fault c.world.store).2 }
          pending := update c.pending i []
          fallback := c.fallback ++ c.pending i }
  | saveOne (h : ℕ) (a : Attempt ι) (now : Int) (fault : SaveFault)
      (ha : c.attempts[h]? = some a) (hf : h ∈ c.fallback) :
      Step cfg c (.saveOne h now fault) (c.saveOne h a now fault)
  | timeout (h : ℕ) (hs : c.stage h = .queued) :
      Step cfg c (.timeout h) { c with stage := update c.stage h .returned }
  | finish (h : ℕ) (a : Attempt ι) (recipientIDs : List Int) (isDuplicate : Bool) (now : Int)
      (fault : CompleteFault) (stop : Option PoolSelect) (ha : c.attempts[h]? = some a)
      (hs : c.stage h = .saved recipientIDs isDuplicate) :
      Step cfg c (.finish h now fault stop)
        (c.finish cfg h a recipientIDs isDuplicate now fault stop)
  | restart (i : ι) : Step cfg c (.restart i) (c.restart i)

theorem step_cases (cfg : ι → WorkerConfig) (c : Cluster ι) (e : ClusterEvent ι) :
    Step cfg c e (c.step cfg e) := by
  cases e with
  | accept i record msg msgID fault =>
    simp only [step, accept]
    rcases hn : c.seqs.nextSeq i msg.topic fault with ⟨err | topicSeq, seqs⟩
    · have hstep : Step cfg c _ _ := .refuse i record msg msgID fault err (by rw [hn])
      rw [hn] at hstep
      exact hstep
    · have hstep : Step cfg c _ _ := .accept i record msg msgID fault topicSeq (by rw [hn])
      rw [hn] at hstep
      exact hstep
  | save h now fault tx =>
    cases ha : c.attempts[h]? with
    | none =>
      simp only [step, ha]
      exact .idle _
    | some a =>
      cases hs : c.stage h with
      | numbered =>
        simp only [step, ha, hs, save]
        split
        · rename_i hb
          exact .queue h a now fault tx ha hs hb
        · rename_i hb
          exact .save h a now fault tx ha hs (by simpa using hb)
      | queued | saved recipientIDs isDuplicate | returned =>
        simp only [step, ha, hs]
        exact .idle _
  | flush i now fault =>
    simp only [step, flush]
    split
    · rename_i dup hv
      exact .flush i now fault dup hv
    · rename_i hv
      exact .fallBack i now fault hv
  | saveOne h now fault =>
    cases ha : c.attempts[h]? with
    | none =>
      simp only [step, ha]
      exact .idle _
    | some a =>
      simp only [step, ha]
      split
      · rename_i hf
        exact .saveOne h a now fault ha hf
      · exact .idle _
  | timeout h =>
    simp only [step]
    split
    · rename_i hs
      exact .timeout h hs
    · exact .idle _
  | finish h now fault stop =>
    cases ha : c.attempts[h]? with
    | none =>
      simp only [step, ha]
      exact .idle _
    | some a =>
      cases hs : c.stage h with
      | saved recipientIDs isDuplicate =>
        simp only [step, ha, hs]
        exact .finish h a recipientIDs isDuplicate now fault stop ha hs
      | numbered | queued | returned =>
        simp only [step, ha, hs]
        exact .idle _
  | restart i => exact .restart i

variable {k : ℕ}

omit [DecidableEq ι] in
theorem attempt_kept {as : List (Attempt ι)} (a : Attempt ι) {b : Attempt ι}
    (h : as[k]? = some b) : (as ++ [a])[k]? = some b := by
  rw [getElem?_append_left (List.getElem?_eq_some_iff.mp h).1, h]

theorem step_attempts {a : Attempt ι} (hs : Step cfg c e c') (ha : c.attempts[k]? = some a) :
    c'.attempts[k]? = some a := by
  cases hs with
  | accept => exact attempt_kept _ ha
  | refuse | idle | queue | save | flush | fallBack | saveOne | timeout | finish | restart =>
    exact ha

/-! ## Numbers -/

/-- The attempts have exactly the seqs that were handed out. -/
structure Numbering (c : Cluster ι) : Prop where
  waiting : ∀ i t, c.seqs.waiting i t = none
  ledger : ∃ l, Refines c.seqs l
  log : (c.seqs.log.map fun r => (r.topic, r.seq)) =
    c.attempts.map fun a => (a.msg.topic, a.topicSeq)

omit [DecidableEq ι] in
theorem numbering_init : Numbering (init ι) where
  waiting := by
    intro i t
    rfl
  ledger := ⟨_, refines_init _⟩
  log := rfl

theorem numbering_nextSeq (h : Numbering c) (i : ι) (t : String) (fault : CallFault) :
    (∀ j u, (c.seqs.nextSeq i t fault).2.waiting j u = none) ∧
      ∃ l, Refines (c.seqs.nextSeq i t fault).2 l := by
  obtain ⟨l, hl⟩ := h.ledger
  exact ⟨h.waiting, nextSeq_refines hl i t fault (h.waiting i t)⟩

theorem log_nextSeq (s : SeqSystem ι) (i : ι) (t : String) (fault : CallFault) :
    (s.nextSeq i t fault).2.log = s.log ++ match (s.nextSeq i t fault).1 with
      | .ok seq => [⟨.single i, t, seq⟩]
      | .error _ => [] := rfl

theorem refines_restart {s : SeqSystem ι} {l : String → TokenLedger.Ledger (Place ι)}
    (h : Refines s l) (i : ι) :
    Refines { s with gens := update s.gens i {} } l where
  top := h.top
  cached := by
    intro j t n
    dsimp only
    by_cases hj : j = i
    · subst j
      rw [update_self]
      intro hpos
      exact absurd hpos (Nat.lt_irrefl 0)
    · rw [update_of_ne hj]
      exact h.cached j t n
  waiting := h.waiting
  batches := h.batches
  spent := h.spent
  nodup := h.nodup

theorem numbering_step (h : Numbering c) (hs : Step cfg c e c') : Numbering c' := by
  cases hs with
  | refuse i record msg msgID fault err hn =>
    obtain ⟨hw, hl⟩ := numbering_nextSeq h i msg.topic fault
    refine ⟨hw, hl, ?_⟩
    rw [log_nextSeq, hn, append_nil]
    exact h.log
  | accept i record msg msgID fault topicSeq hn =>
    obtain ⟨hw, hl⟩ := numbering_nextSeq h i msg.topic fault
    refine ⟨hw, hl, ?_⟩
    rw [log_nextSeq, hn, map_append, h.log, map_append]
    rfl
  | restart i =>
    obtain ⟨l, hl⟩ := h.ledger
    exact ⟨h.waiting, ⟨l, refines_restart hl i⟩, h.log⟩
  | idle => exact h
  | queue | save | flush | fallBack | saveOne | timeout | finish =>
    exact ⟨h.waiting, h.ledger, h.log⟩

omit [DecidableEq ι] in
theorem Numbering.eq_of_seq (h : Numbering c) {j : ℕ} {a b : Attempt ι}
    (hj : c.attempts[j]? = some a) (hk : c.attempts[k]? = some b)
    (ht : a.msg.topic = b.msg.topic) (hq : a.topicSeq = b.topicSeq) : j = k := by
  obtain ⟨l, hl⟩ := h.ledger
  have hnodup := hl.nodup
  rw [h.log] at hnodup
  have hlen : ∀ {i : ℕ} {x : Attempt ι}, c.attempts[i]? = some x → i <
      (c.attempts.map fun a => (a.msg.topic, a.topicSeq)).length := by
    intro i x hx
    obtain ⟨hlt, _⟩ := List.getElem?_eq_some_iff.mp hx
    simpa using hlt
  obtain ⟨_, hja⟩ := List.getElem?_eq_some_iff.mp hj
  obtain ⟨_, hkb⟩ := List.getElem?_eq_some_iff.mp hk
  have heq : (⟨j, hlen hj⟩ : Fin _) = ⟨k, hlen hk⟩ := by
    apply nodup_iff_injective_getElem.mp hnodup
    simp [hja, hkb, ht, hq]
  exact congrArg Fin.val heq

/-! ## Queues -/

def Unwritten (c : Cluster ι) (h : ℕ) : Prop := c.stage h = .numbered ∨ ∃ i, h ∈ c.pending i

/-- The queues hold group messages; whatever waits in a batcher waits there once, and whatever
waits for a save of its own has left it. -/
structure Queues (c : Cluster ι) : Prop where
  numbered : ∀ h, c.stage h = .numbered → ∃ a, c.attempts[h]? = some a
  pending : ∀ i, ∀ h ∈ c.pending i, c.stage h ≠ .numbered ∧
    ∃ a, c.attempts[h]? = some a ∧ a.process = i ∧ isGroup a.msg = true
  nodup : ∀ i, (c.pending i).Nodup
  fallback : ∀ h ∈ c.fallback, ¬ c.Unwritten h ∧
    ∃ a, c.attempts[h]? = some a ∧ isGroup a.msg = true

/-- Attempts only leave the stages before their insert. -/
structure Shrinks (c c' : Cluster ι) : Prop where
  attempts : c'.attempts = c.attempts
  stage : ∀ h, c'.stage h = .numbered → c.stage h = .numbered
  pending : ∀ i, (c'.pending i).Sublist (c.pending i)

omit [DecidableEq ι] in
theorem Shrinks.unwritten (h : Shrinks c c') (hk : c'.Unwritten k) : c.Unwritten k := by
  rcases hk with hk | ⟨i, hk⟩
  · exact .inl (h.stage k hk)
  · exact .inr ⟨i, (h.pending i).subset hk⟩

/-- The attempts stay, and none becomes unwritten again. -/
def Keeps (c c' : Cluster ι) : Prop :=
  ∀ (k : ℕ) a, c.attempts[k]? = some a → c'.attempts[k]? = some a ∧ (c'.Unwritten k → c.Unwritten k)

omit [DecidableEq ι] in
theorem Shrinks.keeps (h : Shrinks c c') : Keeps c c' := by
  intro k a ha
  rw [h.attempts]
  exact ⟨ha, h.unwritten⟩

omit [DecidableEq ι] in
theorem Queues.shrink (hq : Queues c) (h : Shrinks c c')
    (hf : ∀ k ∈ c'.fallback, k ∈ c.fallback) : Queues c' where
  numbered := by
    intro k hk
    rw [h.attempts]
    exact hq.numbered k (h.stage k hk)
  pending := by
    intro i k hk
    obtain ⟨hstage, ha⟩ := hq.pending i k ((h.pending i).subset hk)
    rw [h.attempts]
    exact ⟨fun hn => hstage (h.stage k hn), ha⟩
  nodup := fun i => (hq.nodup i).sublist (h.pending i)
  fallback := by
    intro k hk
    obtain ⟨hun, ha⟩ := hq.fallback k (hf k hk)
    rw [h.attempts]
    exact ⟨fun hk' => hun (h.unwritten hk'), ha⟩

theorem Stage.ofResult_ne_numbered (r : Except String (List Int × Bool)) :
    Stage.ofResult r ≠ .numbered := by
  rcases r with _ | ⟨_, _⟩ <;> simp [Stage.ofResult]

theorem of_update_numbered {stage : ℕ → Stage} {h : ℕ} {st : Stage} (hst : st ≠ .numbered)
    (hk : update stage h st k = .numbered) : k ≠ h ∧ stage k = .numbered := by
  by_cases hkh : k = h
  · subst k
    rw [update_self] at hk
    exact absurd hk hst
  · rw [update_of_ne hkh] at hk
    exact ⟨hkh, hk⟩

theorem resolve_apply (stage : ℕ → Stage) (h : ℕ) (r : Except String Bool) (k : ℕ) :
    resolve stage h r k = if k = h ∧ stage k = .queued then
      Stage.ofResult (r.map fun isDuplicate => ([], isDuplicate)) else stage k := by
  unfold resolve
  by_cases hq : stage h = .queued
  · rw [if_pos hq]
    by_cases hk : k = h
    · subst k
      simp [hq]
    · simp [hk]
  · rw [if_neg hq, if_neg]
    intro hkq
    exact hq (hkq.1 ▸ hkq.2)

theorem foldl_resolve_apply (hs : List ℕ) (stage : ℕ → Stage) (r : Except String Bool) (k : ℕ) :
    hs.foldl (fun stage h => resolve stage h r) stage k =
      if k ∈ hs ∧ stage k = .queued then
        Stage.ofResult (r.map fun isDuplicate => ([], isDuplicate))
      else stage k := by
  induction hs generalizing stage with
  | nil => simp
  | cons h hs ih =>
    rw [foldl_cons, ih, resolve_apply]
    by_cases hk : k = h ∧ stage k = .queued
    · obtain ⟨rfl, hq⟩ := hk
      simp only [hq, if_true, mem_cons, true_or, and_self]
      split <;> rfl
    · rw [if_neg hk]
      by_cases hmem : k ∈ hs ∧ stage k = .queued
      · rw [if_pos hmem, if_pos ⟨mem_cons_of_mem _ hmem.1, hmem.2⟩]
      rw [if_neg hmem, if_neg]
      intro hkq
      rcases mem_cons.mp hkq.1 with rfl | hin
      · exact hk ⟨rfl, hkq.2⟩
      · exact hmem ⟨hin, hkq.2⟩

theorem of_resolved_numbered {hs : List ℕ} {stage : ℕ → Stage} {r : Except String Bool}
    (hk : hs.foldl (fun stage h => resolve stage h r) stage k = .numbered) :
    stage k = .numbered := by
  rw [foldl_resolve_apply] at hk
  split at hk
  · exact absurd hk (Stage.ofResult_ne_numbered _)
  · exact hk

theorem pending_update_nil (pending : ι → List ℕ) (i j : ι) :
    (update pending i [] j).Sublist (pending j) := by
  by_cases hj : j = i
  · subst j
    simp
  · simp [hj]

end NonokaIM.Cluster
