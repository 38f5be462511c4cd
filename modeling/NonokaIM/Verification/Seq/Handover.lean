import NonokaIM.Verification.Seq.Calls

/-! # Sequence numbers across hand-overs

A process that lost a topic keeps the rest of its block. -/

namespace NonokaIM.SeqSystem

open DocumentStore List Function

variable {ι : Type} [DecidableEq ι]

structure Turn (ι : Type) where
  process : ι
  topic : String
  fault : CallFault := .none

def takeTurn (s : SeqSystem ι) (m : Turn ι) : SeqSystem ι :=
  (s.nextSeq m.process m.topic m.fault).2

def owner (s : SeqSystem ι) (t : String) : Option (Caller ι) :=
  ((s.log.filter (·.topic = t)).getLast?).map SeqReturn.caller

/-- A process with a rest of a block has not lost the topic since it took the block. -/
def NoStaleRange (t : String) (s : SeqSystem ι) (m : Turn ι) : Prop :=
  m.topic = t → ((s.gens m.process).range t).Available → s.owner t = some (.single m.process)

omit [DecidableEq ι] in
theorem owner_append (s s' : SeqSystem ι) (c : Caller ι) (t u : String) (n : ℕ)
    (hlog : s'.log = s.log ++ [⟨c, t, n⟩]) :
    s'.owner u = if t = u then some c else s.owner u := by
  simp only [owner, hlog, filter_append]
  by_cases h : t = u <;> simp [h]

/-! ## The invariant of hand-overs -/

/-- The owner has cached only later seqs than those returned, and everybody else only seqs below one
that was returned. -/
structure Settled (t : String) (s : SeqSystem ι) : Prop where
  returned_le : ∀ n ∈ s.returned t, n ≤ s.counter t
  max_le : ∀ i, ((s.gens i).range t).max ≤ s.counter t
  owned : ∀ i, s.owner t = some (.single i) → ∀ n ∈ s.returned t, n < ((s.gens i).range t).next
  stale : ∀ i, s.owner t ≠ some (.single i) → ((s.gens i).range t).Available →
    ∃ n ∈ s.returned t, ((s.gens i).range t).max < n
  ascending : (s.returned t).Pairwise (· < ·)

omit [DecidableEq ι] in
theorem settled_init (t : String) (counter : String → ℕ) : Settled t (init ι counter) where
  returned_le := by simp [returned, init]
  max_le := by
    intro i
    exact Nat.zero_le _
  owned := by simp [owner, init]
  stale := by
    intro i _ ha
    exact absurd ha.1 (Nat.lt_irrefl 0)
  ascending := Pairwise.nil

variable {t : String} {s s' : SeqSystem ι}

omit [DecidableEq ι] in
theorem settled_of_eq (h : Settled t s) (hret : s'.returned t = s.returned t)
    (hown : s'.owner t = s.owner t) (hrange : ∀ j, (s'.gens j).range t = (s.gens j).range t)
    (hcounter : s.counter t ≤ s'.counter t) : Settled t s' where
  returned_le := by
    intro n hn
    rw [hret] at hn
    exact Nat.le_trans (h.returned_le n hn) hcounter
  max_le := by
    intro j
    rw [hrange]
    exact Nat.le_trans (h.max_le j) hcounter
  owned := by
    intro j ho n hn
    rw [hown] at ho
    rw [hret] at hn
    rw [hrange]
    exact h.owned j ho n hn
  stale := by
    intro j ho ha
    rw [hown] at ho
    rw [hrange] at ha ⊢
    rw [hret]
    exact h.stale j ho ha
  ascending := by
    rw [hret]
    exact h.ascending

theorem settled_of_append (h : Settled t s) {i : ι} {n : ℕ}
    (hlog : s'.log = s.log ++ [⟨.single i, t, n⟩]) (hlt : ∀ x ∈ s.returned t, x < n)
    (hothers : ∀ j, j ≠ i →
      (s'.gens j).range t = (s.gens j).range t ∧
      (((s.gens j).range t).Available → ((s.gens j).range t).max < n ∨
        ∃ x ∈ s.returned t, ((s.gens j).range t).max < x)) (hnext : n < ((s'.gens i).range t).next)
    (hmax : ((s'.gens i).range t).max ≤ s'.counter t) (hn : n ≤ s'.counter t)
    (hcounter : s.counter t ≤ s'.counter t) : Settled t s' := by
  have hret : s'.returned t = s.returned t ++ [n] := by
    simpa using returned_append s s' (.single i) t t n hlog
  have hown : s'.owner t = some (.single i) := by
    simpa using owner_append s s' (.single i) t t n hlog
  have hmem : ∀ {x}, x ∈ s'.returned t → x ∈ s.returned t ∨ x = n := by
    intro x hx
    rw [hret] at hx
    simpa using hx
  constructor
  · intro x hx
    rcases hmem hx with hx | rfl
    · exact Nat.le_trans (h.returned_le x hx) hcounter
    · exact hn
  · intro j
    by_cases hj : j = i
    · rw [hj]
      exact hmax
    · rw [(hothers j hj).1]
      exact Nat.le_trans (h.max_le j) hcounter
  · intro j ho x hx
    obtain rfl : i = j := by simpa [hown] using ho
    rcases hmem hx with hx | rfl
    · exact Nat.lt_trans (hlt x hx) hnext
    · exact hnext
  · intro j ho ha
    have hj : j ≠ i := by
      intro he
      exact ho (by rw [hown, he])
    rw [(hothers j hj).1] at ha ⊢
    rw [hret]
    rcases (hothers j hj).2 ha with hjn | ⟨x, hx, hjx⟩
    · exact ⟨n, by simp, hjn⟩
    · exact ⟨x, by simp [hx], hjx⟩
  · rw [hret]
    exact pairwise_append_singleton h.ascending hlt

theorem settled_call (h : Settled t s) {i : ι} {r : Except String ℕ} (hcall : Call s i t r s')
    (hg : ((s.gens i).range t).Available → s.owner t = some (.single i)) : Settled t s' := by
  cases hcall with
  | serve ha =>
    have hown := hg ha
    refine settled_of_append h rfl (h.owned i hown) ?_ ?_ ?_ ?_ (Nat.le_refl _)
    · intro j hj
      refine ⟨by simp [hj], ?_⟩
      intro haj
      refine .inr (h.stale j ?_ haj)
      rw [hown]
      intro he
      exact hj (by simpa using he.symm)
    · simp
    · simpa [range_update] using h.max_le i
    · exact Nat.le_trans ha.2 (h.max_le i)
  | refill ha hc =>
    refine settled_of_append h rfl ?_ ?_ ?_ ?_ ?_ ?_
    · intro x hx
      exact Nat.lt_succ_of_le (h.returned_le x hx)
    · intro j hj
      refine ⟨by simp [hj], ?_⟩
      intro _
      exact .inl (Nat.lt_succ_of_le (h.max_le j))
    · simp
    · simp
    · simp [defaultSeqBatchSize]
    · simp
  | fail ha n e hn =>
    refine settled_of_eq h rfl rfl ?_ ?_
    · intro j
      rw [range_update]
      split
      · rename_i hj
        rw [hj.1]
      · rfl
    · rcases hn with rfl | ⟨rfl, _⟩ <;> simp

theorem settled_other_call {u : String} (hu : u ≠ t) (h : Settled t s) {i : ι} {r : Except String ℕ}
    (hcall : Call s i u r s') : Settled t s' := by
  have hne : ∀ r : SeqRange, ∀ j,
      (update s.gens i ((s.gens i).setRange u r) j).range t = (s.gens j).range t := by
    intro r j
    rw [range_update, if_neg]
    intro he
    exact hu he.2.symm
  have hkeep : ∀ v, update s.counter u v t = s.counter t := by
    intro v
    rw [update_of_ne (Ne.symm hu)]
  cases hcall with
  | serve ha =>
    refine settled_of_eq h ?_ ?_ (hne _) (Nat.le_refl _)
    · simpa [hu] using returned_append s _ (.single i) u t _ rfl
    · simpa [hu] using owner_append s _ (.single i) u t _ rfl
  | refill ha hc =>
    refine settled_of_eq h ?_ ?_ (hne _) (Nat.le_of_eq (hkeep _).symm)
    · simpa [hu] using returned_append s _ (.single i) u t _ rfl
    · simpa [hu] using owner_append s _ (.single i) u t _ rfl
  | fail ha n e hn => exact settled_of_eq h rfl rfl (hne _) (Nat.le_of_eq (hkeep _).symm)

theorem settled_turn (h : Settled t s) (m : Turn ι) (hg : NoStaleRange t s m) :
    Settled t (s.takeTurn m) := by
  have hcall := nextSeq_call s m.process m.topic m.fault
  by_cases hu : m.topic = t
  · rw [hu] at hcall
    have hturn : s.takeTurn m = (s.nextSeq m.process t m.fault).2 := by rw [takeTurn, hu]
    rw [hturn]
    exact settled_call h hcall (hg hu)
  · exact settled_other_call hu h hcall

/-! ## Whole histories -/

def takeTurns (s : SeqSystem ι) (ms : List (Turn ι)) : SeqSystem ι := GuardedRun.run takeTurn s ms

theorem returned_turn (s : SeqSystem ι) (m : Turn ι) (t : String) :
    ∃ ns, (s.takeTurn m).returned t = s.returned t ++ ns := by
  have hcall := nextSeq_call s m.process m.topic m.fault
  change ∃ ns, (s.nextSeq m.process m.topic m.fault).2.returned t = _
  generalize (s.nextSeq m.process m.topic m.fault).1 = r,
    (s.nextSeq m.process m.topic m.fault).2 = s' at hcall
  cases hcall with
  | serve ha | refill ha hc => exact ⟨_, returned_append s _ _ m.topic t _ rfl⟩
  | fail ha n e hn => exact ⟨[], (append_nil _).symm⟩

theorem not_ascending_of_stale (h : Settled t s) (m : Turn ι) (hg : ¬ NoStaleRange t s m) :
    ¬ ((s.takeTurn m).returned t).Pairwise (· < ·) := by
  obtain ⟨i, u, fault⟩ := m
  simp only [NoStaleRange, Classical.not_imp] at hg
  obtain ⟨rfl, ha, hown⟩ := hg
  obtain ⟨x, hx, hlt⟩ := h.stale i hown ha
  have hret : (s.takeTurn ⟨i, u, fault⟩).returned u =
      s.returned u ++ [((s.gens i).range u).next] := by
    have hcall := nextSeq_call s i u fault
    change (s.nextSeq i u fault).2.returned u = _
    generalize (s.nextSeq i u fault).1 = r, (s.nextSeq i u fault).2 = s' at hcall
    cases hcall with
    | serve _ => simpa using returned_append s _ _ u u _ rfl
    | refill hna _ | fail hna _ _ _ => exact absurd ha hna
  rw [hret, pairwise_append]
  intro hp
  have hxn := hp.2.2 x hx _ mem_cons_self
  have hle := ha.2
  omega

/-- The seqs of a topic ascend over a history of hand-overs exactly when nobody numbers one of
its messages from the rest of a block it had before the topic went elsewhere. -/
theorem topic_seqs_ascending_iff (counter : String → ℕ) (ms : List (Turn ι)) (t : String) :
    (((init ι counter).takeTurns ms).returned t).Pairwise (· < ·) ↔
      GuardedRun.Along takeTurn (NoStaleRange t) (init ι counter) ms := by
  have hback : ∀ (s : SeqSystem ι) m, ((s.takeTurn m).returned t).Pairwise (· < ·) →
      (s.returned t).Pairwise (· < ·) := by
    intro s m hp
    obtain ⟨ns, hns⟩ := returned_turn s m t
    rw [hns] at hp
    exact (pairwise_append.mp hp).1
  have hstep : ∀ (s : SeqSystem ι) m, Settled t s → NoStaleRange t s m →
      Settled t (s.takeTurn m) := fun s m h hg => settled_turn h m hg
  have hgood : ∀ s : SeqSystem ι, Settled t s → (s.returned t).Pairwise (· < ·) :=
    fun s h => h.ascending
  exact GuardedRun.good_run_iff_along hstep hgood hback
    (fun s m h hg => not_ascending_of_stale h m hg) (settled_init t counter)

/-- The topic goes from one process to another and back: the third message gets seq 2, after
the second one got seq 101. -/
theorem seq_falls_after_handover :
    ((init Bool fun _ => 0).takeTurns
      [⟨false, "grp_1", .none⟩, ⟨true, "grp_1", .none⟩, ⟨false, "grp_1", .none⟩]).returned
        "grp_1" = [1, 101, 2] ∧
    ¬ (((init Bool fun _ => 0).takeTurns
      [⟨false, "grp_1", .none⟩, ⟨true, "grp_1", .none⟩, ⟨false, "grp_1", .none⟩]).returned
        "grp_1").Pairwise (· < ·) := by
  decide

end NonokaIM.SeqSystem
