import NonokaIM.Verification.Seq.Refinement

/-! # Sequence numbers are handed out once

The seqs of one process ascend, and a failing call leaves the cached ranges as they are. -/

namespace NonokaIM.SeqSystem

open DocumentStore TokenLedger List

variable {ι : Type} [DecidableEq ι]

/-! ## The order of the seqs of one process -/

variable {s : SeqSystem ι}

theorem mem_returned_of_mem_returnedTo {i : ι} {t : String} {n : ℕ} (h : n ∈ s.returnedTo i t) :
    n ∈ s.returned t := by
  obtain ⟨r, hr, rfl⟩ := mem_map.mp h
  obtain ⟨hr, hp⟩ := mem_filter.mp hr
  simp only [decide_eq_true_eq] at hp
  exact mem_map.mpr ⟨r, mem_filter.mpr ⟨hr, by simp [hp.1]⟩, rfl⟩

/-- The seqs returned to a process are ascending, and the process holds only later ones. -/
def Ascending (s : SeqSystem ι) : Prop :=
  ∀ i t, (s.returnedTo i t).Pairwise (· < ·) ∧
    ∀ n ∈ s.returnedTo i t, n < ((s.gens i).range t).next ∧
      ∀ e, s.waiting i t = some (.ok e) → n + defaultSeqBatchSize ≤ e

theorem returnedTo_append (s s' : SeqSystem ι) (i : ι) (t : String) (n : ℕ)
    (hlog : s'.log = s.log ++ [⟨.single i, t, n⟩]) (j : ι) (u : String) :
    s'.returnedTo j u = s.returnedTo j u ++ if j = i ∧ u = t then [n] else [] := by
  simp only [returnedTo, hlog, filter_append, map_append]
  congr 1
  by_cases hju : j = i ∧ u = t
  · obtain ⟨rfl, rfl⟩ := hju
    simp
  · have hti : ¬ (t = u ∧ i = j) := fun he => hju ⟨he.2.symm, he.1.symm⟩
    simp [hju, hti]

theorem pairwise_append_singleton {xs : List ℕ} {n : ℕ} (h : xs.Pairwise (· < ·))
    (hn : ∀ x ∈ xs, x < n) : (xs ++ [n]).Pairwise (· < ·) := by
  refine pairwise_append.mpr ⟨h, by simp, ?_⟩
  intro x hx y hy
  rw [mem_singleton.mp hy]
  exact hn x hx

theorem ascending_serve (h : Ascending s) (i : ι) (t : String) (hw : s.waiting i t = none) :
    Ascending { s with
      gens := Function.update s.gens i ((s.gens i).serve t).2
      log := s.log ++ [⟨.single i, t, ((s.gens i).serve t).1⟩] } := by
  intro j u
  rw [returnedTo_append s _ i t _ rfl]
  obtain ⟨hp, hlt⟩ := h j u
  simp only [SeqGenerator.serve, range_update]
  by_cases hju : j = i ∧ u = t
  · obtain ⟨rfl, rfl⟩ := hju
    simp only [and_self, if_true]
    refine ⟨pairwise_append_singleton hp (fun x hx => (hlt x hx).1), ?_⟩
    intro n hn
    refine ⟨?_, by simp [hw]⟩
    rcases mem_append.mp hn with hn | hn
    · exact Nat.lt_succ_of_lt (hlt n hn).1
    · rw [mem_singleton.mp hn]
      exact Nat.lt_succ_self _
  · simp only [hju, if_false, append_nil]
    exact ⟨hp, hlt⟩

theorem ascending_finish (h : Ascending s) (i : ι) (t : String) (reply : Except String ℕ)
    (hw : s.waiting i t = some reply) : Ascending (s.finish i t reply) := by
  intro j u
  obtain ⟨hp, hlt⟩ := h j u
  cases reply with
  | error e =>
    have hlog : (s.finish i t (.error e)).returnedTo j u = s.returnedTo j u := rfl
    rw [hlog]
    refine ⟨hp, ?_⟩
    intro n hn
    obtain ⟨hnext, hwait⟩ := hlt n hn
    simp only [finish, range_update, waiting_update]
    by_cases hju : j = i ∧ u = t
    · obtain ⟨rfl, rfl⟩ := hju
      simpa using hnext
    · simpa [hju] using ⟨hnext, hwait⟩
  | ok e =>
    rw [returnedTo_append s _ i t _ rfl]
    simp only [finish, SeqGenerator.refill, range_update, waiting_update]
    by_cases hju : j = i ∧ u = t
    · obtain ⟨rfl, rfl⟩ := hju
      have hlater : ∀ n ∈ s.returnedTo j u, n < e - defaultSeqBatchSize + 1 := by
        intro n hn
        have hwait := (hlt n hn).2 e hw
        omega
      simp only [and_self, if_true]
      refine ⟨pairwise_append_singleton hp hlater, ?_⟩
      intro n hn
      refine ⟨?_, by simp⟩
      rcases mem_append.mp hn with hn | hn
      · exact Nat.lt_succ_of_lt (hlater n hn)
      · rw [mem_singleton.mp hn]
        exact Nat.lt_succ_self _
    · simp only [hju, if_false, append_nil]
      exact ⟨hp, hlt⟩

omit [DecidableEq ι] in
theorem gens_finishBatch (s : SeqSystem ι) (k : ℕ) (c : BatchCall) :
    (s.finishBatch k c).gens = s.gens := by
  unfold finishBatch
  cases c.reply <;> rfl

theorem ascending_finishBatch (h : Ascending s) (k : ℕ) (c : BatchCall) :
    Ascending (s.finishBatch k c) := by
  intro j u
  have hlog : (s.finishBatch k c).returnedTo j u = s.returnedTo j u := by
    unfold finishBatch
    cases c.reply with
    | error e => rfl
    | ok e =>
      have hnil : (((seqBlock e c.count).map fun n => (⟨.batch k, c.topic, n⟩ : SeqReturn ι)).filter
          fun r => r.topic = u ∧ r.caller = .single j) = [] := by
        apply filter_eq_nil_iff.mpr
        intro r hr
        obtain ⟨n, _, rfl⟩ := mem_map.mp hr
        simp
      simp only [returnedTo, filter_append, hnil, append_nil]
  have hwait : (s.finishBatch k c).waiting = s.waiting := by
    unfold finishBatch
    cases c.reply <;> rfl
  rw [hlog, gens_finishBatch, hwait]
  exact h j u

theorem step_ascending {l : String → Ledger (Place ι)} (hr : Refines s l) (h : Ascending s)
    (e : SeqEvent ι) : Ascending (s.step e) := by
  have hs := step_cases s e
  generalize s.step e = s' at hs
  cases hs with
  | idle | sendBatch k t count fault _ => exact h
  | serve i t hw _ => exact ascending_serve h i t hw
  | send i t fault _ _ =>
    intro j u
    obtain ⟨hp, hlt⟩ := h j u
    refine ⟨hp, ?_⟩
    intro n hn
    refine ⟨(hlt n hn).1, ?_⟩
    intro e'
    have hbound := (hr.returned_bounds (mem_returned_of_mem_returnedTo hn)).2
    simp only [waiting_update]
    split
    · rename_i hju
      obtain ⟨rfl, rfl⟩ := hju
      intro he
      rcases incrBy_cases (s.counter u) defaultSeqBatchSize fault with hi | ⟨_, hi⟩ | ⟨_, hi⟩
      · rw [hi] at he
        obtain rfl : s.counter u + defaultSeqBatchSize = e' := by simpa using he
        exact Nat.add_le_add_right hbound _
      · rw [hi] at he
        cases he
      · rw [hi] at he
        cases he
    · exact (hlt n hn).2 e'
  | receive i t reply hw => exact ascending_finish h i t reply hw
  | receiveBatch k c _ => exact ascending_finishBatch h k c

theorem run_ascending (counter : String → ℕ) (es : List (SeqEvent ι)) :
    Ascending ((init ι counter).run es) := by
  have hstep : ∀ (s : SeqSystem ι) e, (∃ l, Refines s l) ∧ Ascending s →
      (∃ l, Refines (s.step e) l) ∧ Ascending (s.step e) := by
    rintro s e ⟨⟨l, hr⟩, ha⟩
    exact ⟨step_refines hr e, step_ascending hr ha e⟩
  have hinit : Ascending (init ι counter) := by
    intro i t
    exact ⟨List.Pairwise.nil, by simp [returnedTo, init]⟩
  exact (GuardedRun.invariant_run_all hstep es ⟨⟨_, refines_init counter⟩, hinit⟩).2

/-! ## Failing calls -/

/-- The event is a step of a call that returns an error. -/
def FailingStep (s : SeqSystem ι) : SeqEvent ι → Prop
  | .nextSeq i t fault => s.waiting i t = none ∧ ¬ ((s.gens i).range t).Available ∧
      ∃ e, (incrBy (s.counter t) defaultSeqBatchSize fault).2 = .error e
  | .reply i t => ∃ e, s.waiting i t = some (.error e)
  | .nextSeqBatch k t count fault => s.batches k = none ∧ 0 < count ∧
      ∃ e, (incrBy (s.counter t) count.toNat fault).2 = .error e
  | .batchReply k => ∃ c e, s.batches k = some c ∧ c.reply = .error e

theorem range_finish_error (s : SeqSystem ι) (i : ι) (t e : String) (j : ι) (u : String) :
    ((s.finish i t (.error e)).gens j).range u = (s.gens j).range u := by
  simp only [finish, range_update]
  split
  · rename_i hju
    rw [hju.1, hju.2]
  · rfl

theorem range_failing_step (s : SeqSystem ι) (e : SeqEvent ι) (h : FailingStep s e) (j : ι)
    (u : String) : ((s.step e).gens j).range u = (s.gens j).range u := by
  cases e with
  | nextSeq i t fault =>
    obtain ⟨hw, ha, _⟩ := h
    simp [step, hw, start, ha]
  | reply i t =>
    obtain ⟨e, hw⟩ := h
    simp only [step, hw]
    exact range_finish_error s i t e j u
  | nextSeqBatch k t count fault =>
    obtain ⟨hk, hc, _⟩ := h
    have hpos : ¬ count ≤ 0 := by omega
    simp [step, hk, hpos]
  | batchReply k =>
    obtain ⟨c, e, hk, _⟩ := h
    simp only [step, hk, gens_finishBatch]

/-- Over any interleaving of the calls of any number of processes, no seq of a topic is returned
twice, every seq is at least 1, `NextSeq` returns ascending seqs to a process, and a failing call
leaves the caches alone. -/
theorem seq_generators_safe (counter : String → ℕ) (es : List (SeqEvent ι)) :
    (∀ t, (((init ι counter).run es).returned t).Nodup) ∧
    (∀ t, ∀ n ∈ ((init ι counter).run es).returned t, 1 ≤ n) ∧
    (∀ i t, (((init ι counter).run es).returnedTo i t).Pairwise (· < ·)) ∧
    (∀ e, FailingStep ((init ι counter).run es) e → ∀ j u,
      (((init ι counter).run (es ++ [e])).gens j).range u =
        (((init ι counter).run es).gens j).range u) := by
  obtain ⟨l, hr⟩ := run_refines (ι := ι) counter es
  refine ⟨hr.returned_nodup, ?_, ?_, ?_⟩
  · intro t n hn
    exact (hr.returned_bounds hn).1
  · intro i t
    exact (run_ascending counter es i t).1
  · intro e he j u
    have hrun : (init ι counter).run (es ++ [e]) = ((init ι counter).run es).step e :=
      GuardedRun.run_append step _ es [e]
    rw [hrun]
    exact range_failing_step _ e he j u

end NonokaIM.SeqSystem
