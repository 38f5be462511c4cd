import NonokaIM.Model.SeqGenerator

/-! # The steps of the generators

Calls are started and answered in any order; a step changes the caches of one process and at most
one counter. -/

namespace NonokaIM.SeqSystem

open DocumentStore Function

variable {ι : Type} [DecidableEq ι]

theorem range_update (gens : ι → SeqGenerator) (i j : ι) (t u : String) (r : SeqRange) :
    (update gens i ((gens i).setRange t r) j).range u =
      if j = i ∧ u = t then r else (gens j).range u := by
  by_cases hj : j = i
  · subst j
    rw [update_self]
    by_cases hu : u = t
    · subst u
      simp
    · simp [SeqGenerator.range_setRange_of_ne _ _ hu, hu]
  · simp [hj]

theorem waiting_update {β : Type} (w : ι → String → β) (i j : ι) (t u : String) (v : β) :
    update w i (update (w i) t v) j u = if j = i ∧ u = t then v else w j u := by
  by_cases hj : j = i
  · subst j
    by_cases hu : u = t
    · subst u
      simp
    · simp [hu]
  · simp [hj]

theorem of_update_some {β : Type} {f : ℕ → Option β} {k m : ℕ} {v : Option β} {b : β}
    (h : update f k v m = some b) : (m = k ∧ v = some b) ∨ (m ≠ k ∧ f m = some b) := by
  by_cases hm : m = k
  · subst m
    rw [update_self] at h
    exact .inl ⟨rfl, h⟩
  · rw [update_of_ne hm] at h
    exact .inr ⟨hm, h⟩

theorem incrBy_cases (counter n : ℕ) (fault : CallFault) :
    incrBy counter n fault = (counter + n, .ok (counter + n)) ∨
    (∃ e, incrBy counter n fault = (counter + n, .error e)) ∨
    (∃ e, incrBy counter n fault = (counter, .error e)) := by
  by_cases h : counter + n < 2 ^ 63
  · rw [incrBy_of_lt h]
    cases fault with
    | none => exact .inl rfl
    | failed => exact .inr (.inr ⟨_, rfl⟩)
    | lost => exact .inr (.inl ⟨_, rfl⟩)
  · rw [incrBy_of_not_lt h]
    exact .inr (.inr ⟨_, rfl⟩)

inductive Step (s : SeqSystem ι) : SeqSystem ι → Prop where
  | idle : Step s s
  | serve (i : ι) (t : String) (hw : s.waiting i t = none)
      (ha : ((s.gens i).range t).Available) :
      Step s { s with
        gens := update s.gens i ((s.gens i).serve t).2
        log := s.log ++ [⟨.single i, t, ((s.gens i).serve t).1⟩] }
  | send (i : ι) (t : String) (fault : CallFault) (hw : s.waiting i t = none)
      (ha : ¬ ((s.gens i).range t).Available) :
      Step s { s with
        counter := update s.counter t (incrBy (s.counter t) defaultSeqBatchSize fault).1
        waiting := update s.waiting i (update (s.waiting i) t
          (some (incrBy (s.counter t) defaultSeqBatchSize fault).2)) }
  | receive (i : ι) (t : String) (reply : Except String ℕ) (hw : s.waiting i t = some reply) :
      Step s (s.finish i t reply)
  | sendBatch (k : ℕ) (t : String) (count : ℕ) (fault : CallFault) (hc : s.batches k = none) :
      Step s { s with
        counter := update s.counter t (incrBy (s.counter t) count fault).1
        batches := update s.batches k (some ⟨t, count, (incrBy (s.counter t) count fault).2⟩) }
  | receiveBatch (k : ℕ) (c : BatchCall) (hc : s.batches k = some c) :
      Step s (s.finishBatch k c)

theorem step_cases (s : SeqSystem ι) (e : SeqEvent ι) : Step s (s.step e) := by
  cases e with
  | nextSeq i t fault =>
    cases hw : s.waiting i t with
    | some r =>
      simp only [step, hw]
      exact .idle
    | none =>
      simp only [step, hw, start]
      split
      · rename_i ha
        exact .serve i t hw ha
      · rename_i ha
        exact .send i t fault hw ha
  | reply i t =>
    cases hw : s.waiting i t with
    | some r =>
      simp only [step, hw]
      exact .receive i t r hw
    | none =>
      simp only [step, hw]
      exact .idle
  | nextSeqBatch k t count fault =>
    cases hc : s.batches k with
    | some c =>
      simp only [step, hc]
      exact .idle
    | none =>
      simp only [step, hc]
      split
      · exact .idle
      · exact .sendBatch k t count.toNat fault hc
  | batchReply k =>
    cases hc : s.batches k with
    | some c =>
      simp only [step, hc]
      exact .receiveBatch k c hc
    | none =>
      simp only [step, hc]
      exact .idle

end NonokaIM.SeqSystem
