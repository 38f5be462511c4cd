import NonokaIM.Verification.Worker.Copies

/-! # Seqs after the loss of a counter

Numbering never reads the backup of the highest seq. -/

namespace NonokaIM

open DocumentStore List SeqSystem GuardedRun

def StoredSeq (s : Store) (topic : String) (n : ℕ) : Prop :=
  ∃ x ∈ s.copies, x.topic = topic ∧ x.topicSeq = n
  deriving Decidable

namespace Cluster

variable {ι : Type} [DecidableEq ι] {cfg : ι → WorkerConfig} {c c' : Cluster ι} {e : ClusterEvent ι}

/-! ## Counters -/

/-- The counters go up in whole blocks and stay below the largest 64-bit integer. -/
def Blockwise (c : Cluster ι) : Prop :=
  ∀ t, defaultSeqBatchSize ∣ c.seqs.counter t ∧ c.seqs.counter t < 2 ^ 63

theorem counter_nextSeq (s : SeqSystem ι) (i : ι) (t u : String) (fault : CallFault) :
    (s.nextSeq i t fault).2.counter u = s.counter u ∨
      (s.nextSeq i t fault).2.counter u = s.counter u + defaultSeqBatchSize ∧
        s.counter u + defaultSeqBatchSize < 2 ^ 63 := by
  have hcall := nextSeq_call s i t fault
  generalize (s.nextSeq i t fault).1 = r, (s.nextSeq i t fault).2 = s' at hcall
  by_cases hu : u = t
  · subst u
    cases hcall with
    | serve ha => exact .inl rfl
    | refill ha hc => exact .inr ⟨by simp, hc⟩
    | fail ha n err hn =>
      rcases hn with rfl | ⟨rfl, hc⟩
      · exact .inl (by simp)
      · exact .inr ⟨by simp, hc⟩
  · cases hcall with
    | serve ha => exact .inl rfl
    | refill ha hc | fail ha n err hn => exact .inl (by simp [hu])

theorem blockwise_nextSeq (h : Blockwise c) (i : ι) (t : String) (fault : CallFault) (u : String) :
    defaultSeqBatchSize ∣ (c.seqs.nextSeq i t fault).2.counter u ∧
      (c.seqs.nextSeq i t fault).2.counter u < 2 ^ 63 := by
  obtain ⟨hdvd, hlt⟩ := h u
  rcases counter_nextSeq c.seqs i t u fault with heq | ⟨heq, hnew⟩
  · rw [heq]
    exact ⟨hdvd, hlt⟩
  · rw [heq]
    exact ⟨Nat.dvd_add hdvd (Nat.dvd_refl _), hnew⟩

theorem blockwise_step (h : Blockwise c) (hs : Step cfg c e c') : Blockwise c' := by
  cases hs with
  | refuse i record msg msgID fault err hn | accept i record msg msgID fault topicSeq hn =>
    exact blockwise_nextSeq h i msg.topic fault
  | idle | queue | save | flush | fallBack | saveOne | timeout | finish | restart => exact h

theorem blockwise_run (cfg : ι → WorkerConfig) (es : List (ClusterEvent ι)) :
    Blockwise ((init ι).run cfg es) := by
  have hstep : ∀ (c : Cluster ι) e, Blockwise c → Blockwise (c.step cfg e) :=
    fun c e h => blockwise_step h (step_cases cfg c e)
  have hinit : Blockwise (init ι) := by
    intro t
    exact ⟨Nat.dvd_zero _, Nat.two_pow_pos 63⟩
  exact invariant_run_all hstep es hinit

omit [DecidableEq ι] in
theorem Traced.returned_of_stored (ht : Traced c) {t : String} {n : ℕ}
    (h : StoredSeq c.world.store t n) : n ∈ c.seqs.returned t := by
  obtain ⟨x, hx, htopic, hseq⟩ := h
  have hattempt : ∃ h, ∃ a, c.attempts[(h : ℕ)]? = some a ∧ x = a.copy := by
    rcases mem_copies.mp hx with ⟨r, hr, rfl⟩ | ⟨r, hr, rfl⟩ | ⟨r, hr, rfl⟩
    · obtain ⟨h, a, ha, ⟨hcopy, _⟩, _⟩ := ht.rows.inboxes r hr
      exact ⟨h, a, ha, hcopy⟩
    · obtain ⟨h, a, ha, ⟨hcopy, _⟩, _⟩ := ht.rows.messages r hr
      exact ⟨h, a, ha, hcopy⟩
    · obtain ⟨h, a, ha, hcopy, _⟩ := ht.rows.mentions r hr
      exact ⟨h, a, ha, hcopy⟩
  obtain ⟨h, a, ha, rfl⟩ := hattempt
  have hmem : (t, n) ∈ c.seqs.log.map fun r => (r.topic, r.seq) := by
    rw [ht.numbering.log]
    refine mem_map.mpr ⟨a, mem_of_getElem? ha, ?_⟩
    exact Prod.ext htopic hseq
  obtain ⟨r, hr, heq⟩ := mem_map.mp hmem
  obtain ⟨rfl, rfl⟩ := Prod.mk.inj heq
  exact mem_map.mpr ⟨r, mem_filter.mpr ⟨hr, by simp⟩, rfl⟩

/-! ## Numbering from the start -/

end Cluster

namespace SeqSystem

variable {ι : Type} [DecidableEq ι]

/-- The counter after `k` seqs from a counter that was lost: whole blocks. -/
def blocks (k : ℕ) : ℕ := defaultSeqBatchSize * ((k + 99) / defaultSeqBatchSize)

/-- One process has numbered `k` messages of a topic whose counter was lost, and no other
process has numbered any. -/
structure Counted (s : SeqSystem ι) (i : ι) (t : String) (k : ℕ) : Prop where
  counter : s.counter t = blocks k
  next : ((s.gens i).range t).next = if k = 0 then 0 else k + 1
  max : ((s.gens i).range t).max = blocks k
  returned : s.returned t = range' 1 k

omit [DecidableEq ι] in
theorem counted_init (counter : String → ℕ) (i : ι) (t : String) (h : counter t = 0) :
    Counted (init ι counter) i t 0 where
  counter := h
  next := rfl
  max := rfl
  returned := rfl

variable {s : SeqSystem ι} {t : String}

omit [DecidableEq ι] in
theorem Counted.available_iff {i : ι} {k : ℕ} (h : Counted s i t k) :
    ((s.gens i).range t).Available ↔ k % defaultSeqBatchSize ≠ 0 := by
  rw [SeqRange.Available, h.next, h.max]
  simp only [blocks, defaultSeqBatchSize]
  split <;> omega

omit [DecidableEq ι] in
theorem returned_concat {s' : SeqSystem ι} {i : ι} {k : ℕ} (hret : s.returned t = range' 1 k)
    (hlog : s'.log = s.log ++ [⟨.single i, t, k + 1⟩]) : s'.returned t = range' 1 (k + 1) := by
  have happ : s'.returned t = s.returned t ++ [k + 1] := by
    simpa using returned_append s s' (.single i) t t (k + 1) hlog
  rw [happ, hret, range'_concat, Nat.one_mul, Nat.add_comm 1 k]

theorem counted_nextSeq {i : ι} {k : ℕ} (h : Counted s i t k) (hk : blocks (k + 1) < 2 ^ 63) :
    Counted (s.nextSeq i t .none).2 i t (k + 1) := by
  have havail := h.available_iff
  have hcounter := h.counter
  simp only [blocks, defaultSeqBatchSize] at hk hcounter havail
  by_cases ha : ((s.gens i).range t).Available
  · have hmod := havail.mp ha
    have hk0 : k ≠ 0 := by
      intro hk0
      exact hmod (by rw [hk0])
    have hnext : ((s.gens i).range t).next = k + 1 := by rw [h.next, if_neg hk0]
    have hblocks : blocks (k + 1) = blocks k := by
      simp only [blocks, defaultSeqBatchSize]
      omega
    rw [nextSeq_of_available ha, hnext]
    refine ⟨?_, ?_, ?_, returned_concat h.returned rfl⟩
    · rw [hblocks]
      exact h.counter
    · simp
    · simpa [hblocks] using h.max
  · have hmod : k % 100 = 0 := by
      by_contra hne
      exact ha (havail.mpr hne)
    have hblocks : blocks (k + 1) = k + 100 := by
      simp only [blocks, defaultSeqBatchSize]
      omega
    have hc : s.counter t = k := by omega
    have hroom : s.counter t + defaultSeqBatchSize < 2 ^ 63 := by
      simp only [defaultSeqBatchSize]
      omega
    rw [nextSeq_of_used_up ha hroom, hc]
    refine ⟨?_, ?_, ?_, returned_concat h.returned rfl⟩
    · simp [hblocks, defaultSeqBatchSize]
    · simp
    · simp [hblocks, defaultSeqBatchSize]

end SeqSystem

namespace Cluster

variable {ι : Type} [DecidableEq ι] {cfg : ι → WorkerConfig} {c c' : Cluster ι}

theorem seqs_accept (c : Cluster ι) (i : ι) (record : ℕ) (msg : UpstreamMessage) (msgID : Int)
    (fault : CallFault) :
    (c.accept i record msg msgID fault).seqs = (c.seqs.nextSeq i msg.topic fault).2 := by
  rcases hn : c.seqs.nextSeq i msg.topic fault with ⟨_ | n, s⟩ <;> simp [accept, hn]

theorem counted_accepts (cfg : ι → WorkerConfig) (c : Cluster ι) (i : ι) (msg : UpstreamMessage)
    (k : ℕ) (hk : blocks k < 2 ^ 63) :
    Counted ((c.loseCounter msg.topic).run cfg
      (replicate k (.accept i 0 msg 0 .none))).seqs i msg.topic k := by
  induction k with
  | zero =>
    apply counted_init
    exact Function.update_self ..
  | succ k ih =>
    have hmono : blocks k ≤ blocks (k + 1) := by
      simp only [blocks, defaultSeqBatchSize]
      omega
    rw [replicate_succ', run, run_append]
    simp only [run_cons, run_nil, step]
    rw [seqs_accept]
    exact counted_nextSeq (ih (by omega)) hk

omit [DecidableEq ι] in
theorem numbering_loseCounter (c : Cluster ι) (t : String) : Numbering (c.loseCounter t) where
  waiting := by
    intro i u
    rfl
  ledger := ⟨_, refines_init _⟩
  log := rfl

theorem pos_of_returned {t : String} {es : List (ClusterEvent ι)} {n : ℕ}
    (hn : n ∈ ((c.loseCounter t).run cfg es).seqs.returned t) : 1 ≤ n := by
  have hstep : ∀ (c : Cluster ι) e, Numbering c → Numbering (c.step cfg e) :=
    fun c e h => numbering_step h (step_cases cfg c e)
  have hnum : Numbering ((c.loseCounter t).run cfg es) :=
    invariant_run_all hstep es (numbering_loseCounter c t)
  obtain ⟨l, hl⟩ := hnum.ledger
  exact (hl.returned_bounds hn).1

theorem returned_again (hb : Blockwise c) (cfg : ι → WorkerConfig) (i : ι) (msg : UpstreamMessage)
    {n : ℕ} (hpos : 1 ≤ n) (hle : n ≤ c.seqs.counter msg.topic) :
    ∃ es, n ∈ ((c.loseCounter msg.topic).run cfg es).seqs.returned msg.topic := by
  obtain ⟨⟨m, hm⟩, hlt⟩ := hb msg.topic
  have hk : blocks n < 2 ^ 63 := by
    simp only [blocks, defaultSeqBatchSize] at hm ⊢
    omega
  refine ⟨replicate n (.accept i 0 msg 0 .none), ?_⟩
  rw [(counted_accepts cfg c i msg n hk).returned]
  exact mem_range'_1.mpr ⟨hpos, by omega⟩

/-- After the loss of the counter every new seq of the topic is above the backed-up maximum, and
none is stored already, exactly if the topic was never used before: no maximum was backed up and
no message of it is stored. -/
theorem seqs_above_backup_iff [Nonempty ι] (cfg : ι → WorkerConfig) (es : List (ClusterEvent ι))
    (msg : UpstreamMessage) :
    (∀ es' n, n ∈ ((((init ι).run cfg es).loseCounter msg.topic).run cfg es').seqs.returned
        msg.topic →
      getTopicMaxSeq msg.topic ((init ι).run cfg es).world.store < n ∧
        ¬ StoredSeq ((init ι).run cfg es).world.store msg.topic n) ↔
    getTopicMaxSeq msg.topic ((init ι).run cfg es).world.store = 0 ∧
      ∀ n, ¬ StoredSeq ((init ι).run cfg es).world.store msg.topic n := by
  obtain ⟨i⟩ := ‹Nonempty ι›
  constructor
  · intro h
    constructor
    · by_contra hmax
      have hone := (counted_accepts cfg ((init ι).run cfg es) i msg 1 (by decide)).returned
      have hmem : 1 ∈ range' 1 1 := mem_singleton.mpr rfl
      rw [← hone] at hmem
      have hlt := (h _ 1 hmem).1
      omega
    · intro n hstored
      have ht := traced_run cfg es
      obtain ⟨l, hl⟩ := ht.numbering.ledger
      obtain ⟨hpos, hle⟩ := hl.returned_bounds (ht.returned_of_stored hstored)
      obtain ⟨es', hn⟩ := returned_again (blockwise_run cfg es) cfg i msg hpos hle
      exact (h es' n hn).2 hstored
  · rintro ⟨hmax, hnone⟩ es' n hn
    have hpos := pos_of_returned hn
    exact ⟨by omega, hnone n⟩

theorem unused_topic_above_backup :
    getTopicMaxSeq "p2p_1_2" ((init Unit).run (fun _ => {}) []).world.store = 0 ∧
      ∀ es' n, n ∈ ((((init Unit).run (fun _ => {}) []).loseCounter "p2p_1_2").run
          (fun _ => {}) es').seqs.returned "p2p_1_2" →
        getTopicMaxSeq "p2p_1_2" ((init Unit).run (fun _ => {}) []).world.store < n ∧
          ¬ StoredSeq ((init Unit).run (fun _ => {}) []).world.store "p2p_1_2" n :=
  ⟨rfl, (seqs_above_backup_iff (fun _ => {}) [] greeting).mpr ⟨rfl, fun _ => by
    rintro ⟨x, hx, -⟩
    cases hx⟩⟩

def greeted : Cluster Unit :=
  (init Unit).run (fun _ => {})
    [.accept () 0 greeting 7 .none, .save 0 0 .none .none, .finish 0 0 {} none]

/-- A message of the same topic that was never sent before gets seq 1 again after the loss, is
taken for a duplicate and is stored for nobody. -/
theorem new_message_dropped_after_loss :
    getTopicMaxSeq "p2p_1_2" greeted.world.store = 1 ∧
      ((greeted.loseCounter "p2p_1_2").run (fun _ => {})
        [.accept () 1 { greeting with clientMsgID := "m2" } 8 .none]).seqs.returned "p2p_1_2" = [1] ∧
      StoredSeq greeted.world.store "p2p_1_2" 1 ∧
      ((greeted.loseCounter "p2p_1_2").run (fun _ => {})
        [.accept () 1 { greeting with clientMsgID := "m2" } 8 .none,
          .save 0 0 .none .none]).stage 0 = .saved [2, 1] true ∧
      ∀ r ∈ ((greeted.loseCounter "p2p_1_2").run (fun _ => {})
        [.accept () 1 { greeting with clientMsgID := "m2" } 8 .none,
          .save 0 0 .none .none]).world.store.inboxes.rows, r.clientMsgID ≠ "m2" := by
  decide

end Cluster

end NonokaIM
