import NonokaIM.Verification.Seq.Uniqueness

/-! Whole `NextSeq` calls: the three ways a call ends, and what it leaves alone. -/

namespace NonokaIM.SeqSystem

open DocumentStore TokenLedger Function

variable {ι : Type} [DecidableEq ι]

/-- A call serves a cached seq, takes a new block from Redis, or fails. The increment of a
failing call may have been carried out. -/
inductive Call (s : SeqSystem ι) (i : ι) (t : String) : Except String ℕ → SeqSystem ι → Prop where
  | serve (ha : ((s.gens i).range t).Available) :
      Call s i t (.ok ((s.gens i).range t).next)
        { s with
          gens := update s.gens i ((s.gens i).setRange t
            { (s.gens i).range t with next := ((s.gens i).range t).next + 1 })
          log := s.log ++ [⟨.single i, t, ((s.gens i).range t).next⟩] }
  | refill (ha : ¬ ((s.gens i).range t).Available)
      (hc : s.counter t + defaultSeqBatchSize < 2 ^ 63) :
      Call s i t (.ok (s.counter t + 1))
        { s with
          counter := update s.counter t (s.counter t + defaultSeqBatchSize)
          gens := update s.gens i ((s.gens i).setRange t
            { next := s.counter t + 2, max := s.counter t + defaultSeqBatchSize })
          log := s.log ++ [⟨.single i, t, s.counter t + 1⟩] }
  | fail (ha : ¬ ((s.gens i).range t).Available) (n : ℕ) (e : String)
      (hn : n = s.counter t ∨
        n = s.counter t + defaultSeqBatchSize ∧ s.counter t + defaultSeqBatchSize < 2 ^ 63) :
      Call s i t (.error e)
        { s with
          counter := update s.counter t n
          gens := update s.gens i ((s.gens i).setRange t ((s.gens i).range t)) }

variable {s : SeqSystem ι}

theorem nextSeq_of_available {i : ι} {t : String} (ha : ((s.gens i).range t).Available)
    (fault : CallFault) :
    s.nextSeq i t fault = (.ok ((s.gens i).range t).next,
      { s with
        gens := update s.gens i ((s.gens i).setRange t
          { (s.gens i).range t with next := ((s.gens i).range t).next + 1 })
        log := s.log ++ [⟨.single i, t, ((s.gens i).range t).next⟩] }) := by
  simp [nextSeq, SeqGenerator.nextSeq, ha, SeqGenerator.serve]

theorem nextSeq_of_used_up {i : ι} {t : String} (ha : ¬ ((s.gens i).range t).Available)
    (hc : s.counter t + defaultSeqBatchSize < 2 ^ 63) :
    s.nextSeq i t .none = (.ok (s.counter t + 1),
      { s with
        counter := update s.counter t (s.counter t + defaultSeqBatchSize)
        gens := update s.gens i ((s.gens i).setRange t
          { next := s.counter t + 2, max := s.counter t + defaultSeqBatchSize })
        log := s.log ++ [⟨.single i, t, s.counter t + 1⟩] }) := by
  simp [nextSeq, SeqGenerator.nextSeq, ha, incrBy_of_lt hc, CallFault.applied, CallFault.reported,
    SeqGenerator.refill]

theorem nextSeq_call (s : SeqSystem ι) (i : ι) (t : String) (fault : CallFault) :
    Call s i t (s.nextSeq i t fault).1 (s.nextSeq i t fault).2 := by
  by_cases ha : ((s.gens i).range t).Available
  · rw [nextSeq_of_available ha]
    exact .serve ha
  · by_cases hc : s.counter t + defaultSeqBatchSize < 2 ^ 63
    · cases fault with
      | none =>
        rw [nextSeq_of_used_up ha hc]
        exact .refill ha hc
      | failed =>
        have hcall := Call.fail ha (s.counter t)
          ("redis incrby failed for topic " ++ t ++ ": " ++ "redis") (.inl rfl)
        simpa [nextSeq, SeqGenerator.nextSeq, ha, incrBy_of_lt hc, CallFault.applied,
          CallFault.reported] using hcall
      | lost =>
        have hcall := Call.fail ha (s.counter t + defaultSeqBatchSize)
          ("redis incrby failed for topic " ++ t ++ ": " ++ "redis") (.inr ⟨rfl, hc⟩)
        simpa [nextSeq, SeqGenerator.nextSeq, ha, incrBy_of_lt hc, CallFault.applied,
          CallFault.reported] using hcall
    · have hcall := Call.fail ha (s.counter t) ("redis incrby failed for topic " ++ t ++ ": " ++
        "ERR increment or decrement would overflow") (.inl rfl)
      simpa [nextSeq, SeqGenerator.nextSeq, ha, incrBy_of_not_lt hc] using hcall

omit [DecidableEq ι] in
theorem returned_append (s s' : SeqSystem ι) (c : Caller ι) (t u : String) (n : ℕ)
    (hlog : s'.log = s.log ++ [⟨c, t, n⟩]) :
    s'.returned u = s.returned u ++ if t = u then [n] else [] := by
  simp only [returned, hlog, List.filter_append, List.map_append]
  by_cases h : t = u <;> simp [h]

theorem nextSeq_eq_run (s : SeqSystem ι) (i : ι) (t : String) (fault : CallFault)
    (hw : s.waiting i t = none) :
    (s.nextSeq i t fault).2 = s.run [.nextSeq i t fault, .reply i t] := by
  simp only [run, GuardedRun.run_cons, GuardedRun.run_nil]
  by_cases ha : ((s.gens i).range t).Available
  · simp [step, hw, start, ha, nextSeq, SeqGenerator.nextSeq]
  rcases hr : incrBy (s.counter t) defaultSeqBatchSize fault with ⟨c, reply⟩
  cases reply with
  | ok e | error e =>
    simp [step, hw, start, ha, nextSeq, SeqGenerator.nextSeq, hr, finish]

theorem nextSeq_refines {l : String → Ledger (Place ι)} (h : Refines s l) (i : ι) (t : String)
    (fault : CallFault) (hw : s.waiting i t = none) : ∃ l', Refines (s.nextSeq i t fault).2 l' := by
  rw [nextSeq_eq_run s i t fault hw]
  obtain ⟨l₁, h₁⟩ := step_refines h (.nextSeq i t fault)
  exact step_refines h₁ (.reply i t)

end NonokaIM.SeqSystem
