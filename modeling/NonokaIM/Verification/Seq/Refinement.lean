import NonokaIM.Library.TokenLedger
import NonokaIM.Verification.Seq.Steps
import Mathlib.Data.List.Nodup

/-! # The generators refine one ledger for each topic

Every seq handed out is in one place. -/

namespace NonokaIM.SeqSystem

open DocumentStore TokenLedger List Function

variable {ι : Type}

/-! ## The places of a seq -/

/-- A seq is in the cache of a process, in a reply to a process or a batch call, with a caller, or
lost. -/
inductive Place (ι : Type) where
  | cache (process : ι)
  | reply (process : ι)
  | batch (call : ℕ)
  | spent
  | lost
  deriving DecidableEq

/-- The ledgers tell for every seq where the system has it. -/
structure Refines (s : SeqSystem ι) (l : String → Ledger (Place ι)) : Prop where
  top : ∀ t, (l t).top = s.counter t
  cached : ∀ i t n, 0 < ((s.gens i).range t).next → ((s.gens i).range t).next ≤ n →
    n ≤ ((s.gens i).range t).max → (l t).holder n = some (.cache i)
  waiting : ∀ i t e, s.waiting i t = some (.ok e) → defaultSeqBatchSize ≤ e ∧
    ∀ n, e - defaultSeqBatchSize < n → n ≤ e → (l t).holder n = some (.reply i)
  batches : ∀ k c e, s.batches k = some c → c.reply = .ok e → c.count ≤ e ∧
    ∀ n, e - c.count < n → n ≤ e → (l c.topic).holder n = some (.batch k)
  spent : ∀ r ∈ s.log, (l r.topic).holder r.seq = some .spent
  nodup : (s.log.map fun r => (r.topic, r.seq)).Nodup

theorem refines_init (counter : String → ℕ) :
    Refines (init ι counter) (fun t => .forgotten (counter t)) where
  top := by intro t; rfl
  cached := by
    intro i t n h
    exact absurd h (Nat.lt_irrefl 0)
  waiting := by
    intro i t e h
    cases h
  batches := by
    intro k c e h
    cases h
  spent := by
    intro r hr
    cases hr
  nodup := nodup_nil

variable {s : SeqSystem ι} {l : String → Ledger (Place ι)} {t : String} {n : ℕ} {p : Place ι}

theorem Refines.not_returned (h : Refines s l) (hn : (l t).holder n = some p) (hp : p ≠ .spent) :
    (t, n) ∉ s.log.map fun r => (r.topic, r.seq) := by
  intro hm
  obtain ⟨r, hr, he⟩ := mem_map.mp hm
  obtain ⟨rfl, rfl⟩ := Prod.mk.inj he
  have hs := h.spent r hr
  rw [hn] at hs
  exact hp (Option.some.inj hs)

/-! ## Every step refines a move of the ledgers -/

theorem keep_of_move {q : Place ι} {f : ℕ → Place ι → Place ι}
    (hf : ∀ n p, (l t).holder n = some p → p ≠ q → f n p = p) {u : String}
    (hn : (l u).holder n = some p) (hp : u = t → p ≠ q) : (moveAt l t f u).holder n = some p := by
  apply holder_moveAt_keep hn
  intro hu
  subst u
  exact hf n p hn (hp rfl)

theorem nodup_append_returned (h : Refines s l) (c : Caller ι) (hn : (l t).holder n = some p)
    (hp : p ≠ .spent) :
    ((s.log ++ [(⟨c, t, n⟩ : SeqReturn ι)]).map fun r => (r.topic, r.seq)).Nodup := by
  rw [map_append]
  refine nodup_append.mpr ⟨h.nodup, by simp, ?_⟩
  intro a ha b hb
  simp only [map_cons, map_nil, mem_singleton] at hb
  subst b
  intro hab
  subst a
  exact h.not_returned hn hp ha

theorem keep_of_grant (h : Refines s l) (t : String) (count : ℕ) (p : Place ι) :
    Refines { s with counter := update s.counter t (s.counter t + count) }
      (grantAt l t count p) where
  top := by
    intro u
    rw [top_grantAt, h.top t]
    congr 1
    exact funext h.top
  cached := fun j u n hp hlo hhi => holder_grantAt_old (h.cached j u n hp hlo hhi)
  waiting := by
    intro j u e hw
    exact ⟨(h.waiting j u e hw).1,
      fun n hlo hhi => holder_grantAt_old ((h.waiting j u e hw).2 n hlo hhi)⟩
  batches := by
    intro k c e hk hc
    exact ⟨(h.batches k c e hk hc).1,
      fun n hlo hhi => holder_grantAt_old ((h.batches k c e hk hc).2 n hlo hhi)⟩
  spent := fun r hr => holder_grantAt_old (h.spent r hr)
  nodup := h.nodup

theorem refines_sendBatch (h : Refines s l) (k : ℕ) (t : String) (count : ℕ) (fault : CallFault) :
    ∃ l', Refines { s with
      counter := update s.counter t (incrBy (s.counter t) count fault).1
      batches := update s.batches k
        (some ⟨t, count, (incrBy (s.counter t) count fault).2⟩) } l' := by
  rcases incrBy_cases (s.counter t) count fault with hr | ⟨e, hr⟩ | ⟨e, hr⟩
  · have hg := keep_of_grant h t count (.batch k)
    rw [hr]
    refine ⟨_, hg.top, hg.cached, hg.waiting, ?_, hg.spent, hg.nodup⟩
    intro m c e hm hc
    rcases of_update_some hm with ⟨rfl, hnew⟩ | ⟨_, hold⟩
    · obtain rfl := Option.some.inj hnew
      obtain rfl : s.counter t + count = e := by simpa using hc
      refine ⟨Nat.le_add_left _ _, ?_⟩
      dsimp only
      intro n hlo hhi
      rw [← h.top t] at hlo hhi
      exact holder_grantAt_new (by omega) hhi
    · exact hg.batches m c e hold hc
  · have hg := keep_of_grant h t count .lost
    rw [hr]
    refine ⟨_, hg.top, hg.cached, hg.waiting, ?_, hg.spent, hg.nodup⟩
    intro m c e hm hc
    rcases of_update_some hm with ⟨rfl, hnew⟩ | ⟨_, hold⟩
    · obtain rfl := Option.some.inj hnew
      cases hc
    · exact hg.batches m c e hold hc
  · rw [hr]
    refine ⟨l, by simpa using h.top, h.cached, h.waiting, ?_, h.spent, h.nodup⟩
    intro m c e hm hc
    rcases of_update_some hm with ⟨rfl, hnew⟩ | ⟨_, hold⟩
    · obtain rfl := Option.some.inj hnew
      cases hc
    · exact h.batches m c e hold hc

theorem Refines.returned_nodup (h : Refines s l) (t : String) : (s.returned t).Nodup := by
  have hmap : ((s.log.filter (·.topic = t)).map fun r => (r.topic, r.seq)).Nodup :=
    h.nodup.sublist ((filter_sublist).map _)
  have heq : (s.log.filter (·.topic = t)).map (fun r => (r.topic, r.seq)) =
      (s.returned t).map (t, ·) := by
    rw [returned, map_map]
    apply map_congr_left
    intro r hr
    have ht : r.topic = t := by simpa using (mem_filter.mp hr).2
    simp [ht]
  rw [heq] at hmap
  exact hmap.of_map _

theorem Refines.returned_bounds (h : Refines s l) (hn : n ∈ s.returned t) :
    1 ≤ n ∧ n ≤ s.counter t := by
  obtain ⟨r, hr, rfl⟩ := mem_map.mp hn
  obtain ⟨hlog, ht⟩ := mem_filter.mp hr
  have htopic : r.topic = t := by simpa using ht
  have hspent := h.spent r hlog
  rw [htopic] at hspent
  rw [← h.top]
  exact (l t).bounded r.seq _ hspent

variable [DecidableEq ι]

theorem refines_serve (h : Refines s l) (i : ι) (t : String) (ha : ((s.gens i).range t).Available) :
    ∃ l', Refines { s with
      gens := update s.gens i ((s.gens i).serve t).2
      log := s.log ++ [⟨.single i, t, ((s.gens i).serve t).1⟩] } l' := by
  obtain ⟨hpos, hle⟩ := ha
  have hfirst := h.cached i t _ hpos (Nat.le_refl _) hle
  let f : ℕ → Place ι → Place ι := fun n p => if n = ((s.gens i).range t).next then .spent else p
  have hf : ∀ n p, (l t).holder n = some p → p ≠ .cache i → f n p = p := by
    intro n p hn hp
    apply if_neg
    intro he
    rw [he, hfirst] at hn
    exact hp (Option.some.inj hn).symm
  refine ⟨moveAt l t f, ?_, ?_, ?_, ?_, ?_, ?_⟩
  · intro u
    rw [top_moveAt]
    exact h.top u
  · intro j u n
    simp only [SeqGenerator.serve, range_update]
    split
    · rename_i hju
      obtain ⟨rfl, rfl⟩ := hju
      dsimp only
      intro _ hlo hhi
      have hn := h.cached j u n hpos (by omega) hhi
      rw [holder_moveAt_self hn]
      exact congrArg some (if_neg (by omega))
    · rename_i hju
      intro hp hlo hhi
      apply keep_of_move hf (h.cached j u n hp hlo hhi)
      intro hu he
      exact hju ⟨by simpa using he, hu⟩
  · intro j u e hw
    refine ⟨(h.waiting j u e hw).1, ?_⟩
    intro n hlo hhi
    exact keep_of_move hf ((h.waiting j u e hw).2 n hlo hhi) (by simp)
  · intro k c e hk hc
    refine ⟨(h.batches k c e hk hc).1, ?_⟩
    intro n hlo hhi
    exact keep_of_move hf ((h.batches k c e hk hc).2 n hlo hhi) (by simp)
  · intro r hr
    rcases mem_append.mp hr with hr | hr
    · exact keep_of_move hf (h.spent r hr) (by simp)
    · rw [mem_singleton.mp hr]
      change (moveAt l t f t).holder ((s.gens i).range t).next = _
      rw [holder_moveAt_self hfirst]
      exact congrArg some (if_pos rfl)
  · exact nodup_append_returned h _ hfirst (by simp)

theorem refines_send (h : Refines s l) (i : ι) (t : String) (fault : CallFault) :
    ∃ l', Refines { s with
      counter := update s.counter t (incrBy (s.counter t) defaultSeqBatchSize fault).1
      waiting := update s.waiting i (update (s.waiting i) t
        (some (incrBy (s.counter t) defaultSeqBatchSize fault).2)) } l' := by
  rcases incrBy_cases (s.counter t) defaultSeqBatchSize fault with hr | ⟨e, hr⟩ | ⟨e, hr⟩
  · have hg := keep_of_grant h t defaultSeqBatchSize (.reply i)
    rw [hr]
    refine ⟨_, hg.top, hg.cached, ?_, hg.batches, hg.spent, hg.nodup⟩
    intro j u e
    simp only [waiting_update]
    split
    · rename_i hju
      obtain ⟨rfl, rfl⟩ := hju
      intro he
      obtain rfl : s.counter u + defaultSeqBatchSize = e := by simpa using he
      refine ⟨Nat.le_add_left _ _, ?_⟩
      intro n hlo hhi
      rw [← h.top u] at hlo hhi
      exact holder_grantAt_new (by omega) hhi
    · exact hg.waiting j u e
  · have hg := keep_of_grant h t defaultSeqBatchSize .lost
    rw [hr]
    refine ⟨_, hg.top, hg.cached, ?_, hg.batches, hg.spent, hg.nodup⟩
    intro j u e
    simp only [waiting_update]
    split
    · simp
    · exact hg.waiting j u e
  · rw [hr]
    refine ⟨l, ?_, h.cached, ?_, h.batches, h.spent, h.nodup⟩
    · simpa using h.top
    · intro j u e
      simp only [waiting_update]
      split
      · simp
      · exact h.waiting j u e

theorem refines_finish_error (h : Refines s l) (i : ι) (t : String) (e : String) :
    Refines (s.finish i t (.error e)) l := by
  refine ⟨h.top, ?_, ?_, h.batches, h.spent, h.nodup⟩
  · intro j u n
    simp only [finish, range_update]
    split
    · rename_i hju
      obtain ⟨rfl, rfl⟩ := hju
      exact h.cached j u n
    · exact h.cached j u n
  · intro j u e
    simp only [finish, waiting_update]
    split
    · simp
    · exact h.waiting j u e

theorem refines_finish_ok (h : Refines s l) (i : ι) (t : String) (e : ℕ)
    (hw : s.waiting i t = some (.ok e)) : ∃ l', Refines (s.finish i t (.ok e)) l' := by
  obtain ⟨hle, hblock⟩ := h.waiting i t e hw
  have hfirst : (l t).holder (e - defaultSeqBatchSize + 1) = some (.reply i) :=
    hblock _ (by omega) (by simp only [defaultSeqBatchSize] at hle ⊢; omega)
  let f : ℕ → Place ι → Place ι := fun n p =>
    if p = .reply i then if n = e - defaultSeqBatchSize + 1 then .spent else .cache i else p
  have hf : ∀ n p, (l t).holder n = some p → p ≠ .reply i → f n p = p :=
    fun n p _ hp => if_neg hp
  refine ⟨moveAt l t f, ?_, ?_, ?_, ?_, ?_, ?_⟩
  · intro u
    rw [top_moveAt]
    exact h.top u
  · intro j u n
    simp only [finish, SeqGenerator.refill, range_update]
    split
    · rename_i hju
      obtain ⟨rfl, rfl⟩ := hju
      dsimp only
      intro _ hlo hhi
      rw [holder_moveAt_self (hblock n (by omega) hhi)]
      simp only [f, if_true]
      exact congrArg some (if_neg (by omega))
    · intro hp hlo hhi
      exact keep_of_move hf (h.cached j u n hp hlo hhi) (by simp)
  · intro j u e'
    simp only [finish, waiting_update]
    split
    · simp
    rename_i hju
    intro hw'
    refine ⟨(h.waiting j u e' hw').1, ?_⟩
    intro n hlo hhi
    apply keep_of_move hf ((h.waiting j u e' hw').2 n hlo hhi)
    intro hu he
    exact hju ⟨by simpa using he, hu⟩
  · intro k c e' hk hc
    refine ⟨(h.batches k c e' hk hc).1, ?_⟩
    intro n hlo hhi
    exact keep_of_move hf ((h.batches k c e' hk hc).2 n hlo hhi) (by simp)
  · intro r hr
    rcases mem_append.mp hr with hr | hr
    · exact keep_of_move hf (h.spent r hr) (by simp)
    · rw [mem_singleton.mp hr]
      change (moveAt l t f t).holder (e - defaultSeqBatchSize + 1) = _
      rw [holder_moveAt_self hfirst]
      simp [f]
  · exact nodup_append_returned h _ hfirst (by simp)

theorem refines_finish (h : Refines s l) (i : ι) (t : String) (reply : Except String ℕ)
    (hw : s.waiting i t = some reply) : ∃ l', Refines (s.finish i t reply) l' := by
  cases reply with
  | error e => exact ⟨l, refines_finish_error h i t e⟩
  | ok e => exact refines_finish_ok h i t e hw

theorem mem_seqBlock {e count : ℕ} (hle : count ≤ e) :
    n ∈ seqBlock e count ↔ e - count < n ∧ n ≤ e := by
  simp only [seqBlock, mem_range'_1]
  omega

theorem refines_finishBatch_ok (h : Refines s l) (k : ℕ) (c : BatchCall) (hk : s.batches k = some c)
    (e : ℕ) (hc : c.reply = .ok e) : ∃ l', Refines (s.finishBatch k c) l' := by
  obtain ⟨hle, hblock⟩ := h.batches k c e hk hc
  let f : ℕ → Place ι → Place ι := fun _ p => if p = .batch k then .spent else p
  have hf : ∀ n p, (l c.topic).holder n = some p → p ≠ .batch k → f n p = p :=
    fun n p _ hp => if_neg hp
  simp only [finishBatch, hc]
  refine ⟨moveAt l c.topic f, ?_, ?_, ?_, ?_, ?_, ?_⟩
  · intro u
    rw [top_moveAt]
    exact h.top u
  · intro j u n hp hlo hhi
    exact keep_of_move hf (h.cached j u n hp hlo hhi) (by simp)
  · intro j u e' hw
    refine ⟨(h.waiting j u e' hw).1, ?_⟩
    intro n hlo hhi
    exact keep_of_move hf ((h.waiting j u e' hw).2 n hlo hhi) (by simp)
  · intro m d e' hm hd
    rcases of_update_some hm with ⟨_, hnone⟩ | ⟨hmk, hold⟩
    · cases hnone
    · refine ⟨(h.batches m d e' hold hd).1, ?_⟩
      intro n hlo hhi
      apply keep_of_move hf ((h.batches m d e' hold hd).2 n hlo hhi)
      intro _ he
      exact hmk (by simpa using he)
  · intro r hr
    rcases mem_append.mp hr with hr | hr
    · exact keep_of_move hf (h.spent r hr) (by simp)
    · obtain ⟨n, hn, rfl⟩ := mem_map.mp hr
      obtain ⟨hlo, hhi⟩ := (mem_seqBlock hle).mp hn
      rw [holder_moveAt_self (hblock n hlo hhi)]
      simp [f]
  · rw [map_append, map_map]
    refine nodup_append.mpr ⟨h.nodup, ?_, ?_⟩
    · refine List.Nodup.map ?_ nodup_range'
      intro a b hab
      simpa using hab
    · intro a ha b hb hab
      subst b
      obtain ⟨n, hn, rfl⟩ := mem_map.mp hb
      obtain ⟨hlo, hhi⟩ := (mem_seqBlock hle).mp hn
      exact h.not_returned (hblock n hlo hhi) (by simp) ha

theorem refines_finishBatch (h : Refines s l) (k : ℕ) (c : BatchCall) (hk : s.batches k = some c) :
    ∃ l', Refines (s.finishBatch k c) l' := by
  cases hc : c.reply with
  | error e =>
    refine ⟨l, ?_⟩
    simp only [finishBatch, hc]
    refine ⟨h.top, h.cached, h.waiting, ?_, h.spent, h.nodup⟩
    intro m d e hm hd
    rcases of_update_some hm with ⟨_, hnone⟩ | ⟨_, hold⟩
    · cases hnone
    · exact h.batches m d e hold hd
  | ok e => exact refines_finishBatch_ok h k c hk e hc

theorem step_refines (h : Refines s l) (e : SeqEvent ι) : ∃ l', Refines (s.step e) l' := by
  have hs := step_cases s e
  generalize s.step e = s' at hs
  cases hs with
  | idle => exact ⟨l, h⟩
  | serve i t _ ha => exact refines_serve h i t ha
  | send i t fault _ _ => exact refines_send h i t fault
  | receive i t reply hw => exact refines_finish h i t reply hw
  | sendBatch k t count fault _ => exact refines_sendBatch h k t count fault
  | receiveBatch k c hc => exact refines_finishBatch h k c hc

theorem run_refines (counter : String → ℕ) (es : List (SeqEvent ι)) :
    ∃ l, Refines ((init ι counter).run es) l := by
  have hstep : ∀ (s : SeqSystem ι) e, (∃ l, Refines s l) → ∃ l, Refines (s.step e) l := by
    rintro s e ⟨l, h⟩
    exact step_refines h e
  exact GuardedRun.invariant_run_all hstep es ⟨_, refines_init counter⟩

end NonokaIM.SeqSystem
