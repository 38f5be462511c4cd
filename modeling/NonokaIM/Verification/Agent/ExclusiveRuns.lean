import NonokaIM.Library.GuardedRun
import NonokaIM.Model.Agent

/-! Calls of `Handle` that exclude each other.

As long as one call at most holds the run, a held run is `running`. But a stale run is taken over
from a call that has not set `started_at` yet, and a failed run is handed back to calls that have
not claimed it. -/

namespace NonokaIM

open GuardedRun DocumentStore HandlePhase AgentRun HandleCall Option

/-- The call has claimed the run, or goes on after `ClaimRun`, and has not returned. -/
def HandlePhase.pastClaim : HandlePhase → Bool
  | .rereadClaimed | .touch | .start _ | .recent | .model _ | .send _ | .addTurn | .complete
  | .fail _ => true
  | _ => false

def HandlePhase.working : HandlePhase → Bool
  | .rereadClaimed => false
  | p => p.pastClaim

theorem HandlePhase.pastClaim_of_working {p : HandlePhase} (h : p.working = true) :
    p.pastClaim = true := by
  cases p <;> first | rfl | cases h

def Held (run : Option AgentRun) : Bool := run.any (·.status = .running)

namespace AgentState

variable {ι : Type} [DecidableEq ι] {h : Harness} {ev : MessageEvent} {s s' : AgentState ι} {i : ι}
  {env : HandleEnv}

def start (run : Option AgentRun) (now : Int) : AgentState ι := { run, now }

/-- At most one call is past its claim, and only calls that claimed the run go on. -/
def Exclusive (s : AgentState ι) : Prop :=
  (∀ i j, (s.calls i).phase.pastClaim = true → (s.calls j).phase.pastClaim = true → i = j) ∧
    ∀ i, (s.calls i).phase.working = true → (s.calls i).claimed = true

/-- The next statement of the call takes over a stale run. -/
def TakesOver (s : AgentState ι) (i : ι) (env : HandleEnv) : Prop :=
  ∃ cutoff, (s.calls i).phase = .takeover cutoff ∧ env.fault = .none ∧
    s.run.any (·.staleRunning cutoff) = true

def HandsBackFailed (s : AgentState ι) (i : ι) (env : HandleEnv) : Prop :=
  ((s.calls i).phase = .reread ∨ (s.calls i).phase = .recheck) ∧ env.fault.reported = false ∧
    s.run.any (·.status = .failed) = true

/-- No run is taken over from a call that is past its claim, and no failed run is handed back. -/
def Allowed (s : AgentState ι) : AgentOp ι → Prop
  | .act i env =>
    ¬ (s.TakesOver i env ∧ ∃ j, (s.calls j).phase.pastClaim = true) ∧ ¬ s.HandsBackFailed i env
  | _ => True

/-! ## What a statement does -/

/-- What the other statements do to their call and to the row. -/
inductive SafeMove (c c' : HandleCall) (run run' : Option AgentRun) : Prop
  | leave (hc' : c'.phase.pastClaim = false)
      (hrun : c.phase.pastClaim = true ∨ (Held run = true → Held run' = true))
  | keep (hc : c.phase.pastClaim = true) (hc' : c'.phase.pastClaim = true)
      (hclaimed : (c.phase.working = true → c.claimed = true) →
        c'.phase.working = true → c'.claimed = true)
      (hrun : Held run = true → Held run' = true)
  | claim (hc : c.phase.pastClaim = false) (hc' : c'.phase.pastClaim = true)
      (hclaimed : c'.phase.working = true → c'.claimed = true) (hfree : Held run = false)
      (hrun : Held run' = true)

theorem calls_act_of_ne {j : ι} (hj : j ≠ i) : (s.act h ev i env).calls j = s.calls j := by
  simp only [act, returnRun]
  repeat' split
  all_goals simp [setPhase, setCall, withRun, hj]

variable {run : Option AgentRun} {c : HandleCall} {r : AgentRun}

theorem held_updateRun {fault : CallFault} {set : AgentRun → AgentRun}
    (hset : ∀ r, r.status = .running → (set r).status = .running) (hrun : Held run = true) :
    Held (updateRun fault set run) = true := by
  unfold updateRun
  split
  · simp only [Held, any_map, any_eq_true, decide_eq_true_eq] at hrun ⊢
    obtain ⟨r, hr, hstatus⟩ := hrun
    exact ⟨r, hr, hset r hstatus⟩
  · exact hrun

theorem SafeMove.stay {c' : HandleCall} {run' : Option AgentRun} (hc : c.phase.working = true)
    (hc' : c'.phase.pastClaim = true) (hsame : c'.claimed = c.claimed)
    (hrun : Held run = true → Held run' = true) : SafeMove c c' run run' :=
  .keep (pastClaim_of_working hc) hc' (fun hclaimed _ => hsame.trans (hclaimed hc)) hrun

theorem SafeMove.stop {c' : HandleCall} {run' : Option AgentRun} (hc : c.phase.working = true)
    (hc' : c'.phase.pastClaim = false) : SafeMove c c' run run' :=
  .leave hc' (.inl (pastClaim_of_working hc))

theorem safeMove_working (hw : (s.calls i).phase.working = true) :
    SafeMove (s.calls i) ((s.act h ev i env).calls i) s.run (s.act h ev i env).run := by
  unfold act
  dsimp only
  cases hp : (s.calls i).phase with
  | touch | recent =>
    dsimp only
    split <;> exact .stay hw (by simp [pastClaim]) (by simp) (by simp)
  | start time =>
    refine .stay hw (by simp [pastClaim]) (by simp) ?_
    exact held_updateRun fun _ _ => rfl
  | model since | send text =>
    dsimp only
    repeat' split
    all_goals exact .stay hw (by simp [pastClaim]) (by simp) (by simp)
  | addTurn =>
    dsimp only
    split
    · exact .stop hw (by simp [pastClaim])
    · exact .stay hw (by simp [pastClaim]) (by simp) (by simp)
  | complete | fail errorCode => exact .stop hw (by simp [pastClaim])
  | _ => simp [hp, working, pastClaim] at hw

theorem claimReturns_true (c : HandleCall) (r : AgentRun) :
    c.claimReturns true r = { c with claimed := true, phase := .touch } := by
  simp [claimReturns]

theorem claimReturns_of_failed (c : HandleCall) (hr : r.status = .failed) :
    c.claimReturns false r = { c with claimed := false, phase := .touch } := by
  simp [claimReturns, hr]

theorem claimReturns_of_not_failed (c : HandleCall) (hr : r.status ≠ .failed) :
    c.claimReturns false r = { c with claimed := false, phase := .returned } := by
  cases hs : r.status with
  | failed => exact absurd hs hr
  | running | completed => simp [claimReturns, hs]

theorem safeMove_setPhase {p : HandlePhase} (hs' : s' = s.setPhase i p)
    (hp : p.pastClaim = false) : SafeMove (s.calls i) (s'.calls i) s.run s'.run := by
  rw [hs']
  exact .leave (by simpa using hp) (.inr id)

theorem safeMove_claimReturns (hr : r.status ≠ .failed) :
    SafeMove (s.calls i) ((s.setCall i ((s.calls i).claimReturns false r)).calls i) s.run s.run :=
  .leave (by simp [claimReturns_of_not_failed _ hr, pastClaim]) (.inr id)

theorem safeMove_first (hp : (s.calls i).phase = .first) :
    SafeMove (s.calls i) ((s.act h ev i env).calls i) s.run (s.act h ev i env).run := by
  cases hrun : s.run with
  | none =>
    rw [← hrun]
    exact safeMove_setPhase (p := .create) (by simp [act, hp, hrun]) rfl
  | some r =>
    rw [← hrun]
    by_cases hfault : env.fault.reported = true
    · exact safeMove_setPhase (p := .create) (by simp [act, hp, hrun, hfault]) rfl
    by_cases hretry : (r.status = .failed || r.staleRunning (s.now - staleAfter)) = true
    · have hact : s.act h ev i env = s.setPhase i (.retry r) := by
        simp only [act, hp, hrun, hfault, hretry, if_true, Bool.false_eq_true, if_false]
      exact safeMove_setPhase hact rfl
    · have hact : s.act h ev i env = s.setCall i ((s.calls i).claimReturns false r) := by
        simp only [act, hp, hrun, hfault, hretry, Bool.false_eq_true, if_false]
      rw [hact]
      apply safeMove_claimReturns
      intro hfailed
      simp [hfailed] at hretry

theorem afterUpdate_cases (fault : CallFault) (affected : Bool) :
    (fault = .none ∧ affected = true ∧ afterUpdate fault affected = .rereadClaimed) ∨
      (¬ (fault = .none ∧ affected = true) ∧
        (afterUpdate fault affected).pastClaim = false) := by
  cases fault <;> cases affected <;> simp [afterUpdate, CallFault.reported, pastClaim]

theorem safeMove_retry {existing : AgentRun} (hp : (s.calls i).phase = .retry existing) :
    SafeMove (s.calls i) ((s.act h ev i env).calls i) s.run (s.act h ev i env).run := by
  have hpast : (s.calls i).phase.pastClaim = false := by simp [hp, pastClaim]
  have hkept : Held s.run = true →
      Held (updateRun env.fault (fun r => r.retryFailed.1) s.run) = true := by
    apply held_updateRun
    intro r hr
    simp [retryFailed, hr]
  by_cases hrunning : existing.status = .running
  · have hact : s.act h ev i env =
        (s.withRun (updateRun env.fault (fun r => r.retryFailed.1) s.run)).setPhase i
          (.takeover (s.now - staleAfter)) := by
      simp [act, hp, hrunning]
    rw [hact]
    exact .leave (by simp [pastClaim]) (.inr hkept)
  · have hact : s.act h ev i env =
        (s.withRun (updateRun env.fault (fun r => r.retryFailed.1) s.run)).setPhase i
          (afterUpdate env.fault (s.run.any fun r => r.retryFailed.2)) := by
      simp [act, hp, hrunning]
    rw [hact]
    rcases afterUpdate_cases env.fault (s.run.any fun r => r.retryFailed.2) with
      ⟨hfault, haffected, hafter⟩ | ⟨_, hafter⟩
    · rw [any_eq_true] at haffected
      obtain ⟨r, hr, hfailed⟩ := haffected
      have hstatus : r.status = .failed := by
        by_contra hne
        simp [retryFailed, hne] at hfailed
      refine .claim hpast ?_ ?_ ?_ ?_
      · simp [hafter, pastClaim]
      · simp [hafter, working]
      · simp [Held, hr, hstatus]
      · simp [Held, updateRun, hfault, CallFault.applied, hr, retryFailed, hstatus]
    · exact .leave (by simpa using hafter) (.inr hkept)

theorem returnRun_cases (s : AgentState ι) (i : ι) (fault : CallFault) (claimed : Bool) :
    (∃ r, s.run = some r ∧ fault.reported = false ∧
      s.returnRun i fault claimed = s.setCall i ((s.calls i).claimReturns claimed r)) ∨
    ((fault.reported = true ∨ s.run = none) ∧
      s.returnRun i fault claimed = s.setPhase i .returned) := by
  unfold returnRun
  cases hrun : s.run with
  | none => exact .inr ⟨.inr rfl, rfl⟩
  | some r =>
    cases hfault : fault.reported with
    | true => exact .inr ⟨.inl rfl, rfl⟩
    | false => exact .inl ⟨r, rfl, rfl, rfl⟩

theorem safeMove_rereadClaimed (hp : (s.calls i).phase = .rereadClaimed) :
    SafeMove (s.calls i) ((s.act h ev i env).calls i) s.run (s.act h ev i env).run := by
  have hpast : (s.calls i).phase.pastClaim = true := by simp [hp, pastClaim]
  have hact : s.act h ev i env = s.returnRun i env.fault true := by simp only [act, hp]
  rw [hact]
  rcases returnRun_cases s i env.fault true with ⟨r, _, _, hreturn⟩ | ⟨_, hreturn⟩
  · rw [hreturn]
    refine .keep hpast ?_ ?_ id
    · simp [claimReturns_true, pastClaim]
    · simp [claimReturns_true]
  · rw [hreturn]
    exact .leave (by simp [pastClaim]) (.inl hpast)

theorem safeMove_create (hp : (s.calls i).phase = .create) :
    SafeMove (s.calls i) ((s.act h ev i env).calls i) s.run (s.act h ev i env).run := by
  cases hrun : s.run with
  | some r =>
    rw [← hrun]
    exact safeMove_setPhase (p := .recheck) (by simp [act, hp, hrun]) rfl
  | none =>
    cases hfault : env.fault with
    | none =>
      have hact : s.act h ev i env =
          (s.withRun (some (h.newRun ev (s.calls i).createdAt))).setCall i
            ((s.calls i).claimReturns true (h.newRun ev (s.calls i).createdAt)) := by
        simp [act, hp, hrun, hfault, CallFault.applied, CallFault.reported]
      rw [hact]
      refine .claim (by simp [hp, pastClaim]) ?_ ?_ rfl ?_
      · simp [claimReturns_true, pastClaim]
      · simp [claimReturns_true]
      · simp [Held, Harness.newRun]
    | failed =>
      have hact : s.act h ev i env = s.setPhase i .recheck := by
        simp [act, hp, hrun, hfault, CallFault.applied, CallFault.reported]
      rw [← hrun]
      exact safeMove_setPhase hact rfl
    | lost =>
      have hact : s.act h ev i env =
          (s.withRun (some (h.newRun ev (s.calls i).createdAt))).setPhase i .recheck := by
        simp [act, hp, hrun, hfault, CallFault.applied, CallFault.reported]
      rw [hact]
      exact .leave (by simp [pastClaim]) (.inr nofun)

/-- What the next statement of a call does. -/
inductive ActMove (s : AgentState ι) (i : ι) (env : HandleEnv) (s' : AgentState ι) : Prop
  | takes (htakes : s.TakesOver i env) (hback : ¬ s.HandsBackFailed i env)
      (hc' : (s'.calls i).phase = .rereadClaimed) (hrun : Held s'.run = true)
  | strays (hback : s.HandsBackFailed i env) (hc' : (s'.calls i).phase.working = true)
      (hclaimed : (s'.calls i).claimed = false)
  | safe (htakes : ¬ s.TakesOver i env) (hback : ¬ s.HandsBackFailed i env)
      (hmove : SafeMove (s.calls i) (s'.calls i) s.run s'.run)

theorem actMove_takeover {cutoff : Int} (hp : (s.calls i).phase = .takeover cutoff) :
    ActMove s i env (s.act h ev i env) := by
  have hback : ¬ s.HandsBackFailed i env := by simp [HandsBackFailed, hp]
  have hact : s.act h ev i env =
      (s.withRun (updateRun env.fault (fun r => (r.takeOver cutoff).1) s.run)).setPhase i
        (afterUpdate env.fault (s.run.any fun r => (r.takeOver cutoff).2)) := by
    simp [act, hp]
  have hkept : Held s.run = true →
      Held (updateRun env.fault (fun r => (r.takeOver cutoff).1) s.run) = true := by
    apply held_updateRun
    intro r hr
    unfold takeOver
    split <;> exact hr
  have haffects : (s.run.any fun r => (r.takeOver cutoff).2) =
      s.run.any (·.staleRunning cutoff) := by
    congr 1
    funext r
    cases hstale : r.staleRunning cutoff <;> simp [takeOver, hstale]
  rw [hact]
  rcases afterUpdate_cases env.fault (s.run.any fun r => (r.takeOver cutoff).2) with
    ⟨hfault, haffected, hafter⟩ | ⟨hnot, hafter⟩
  · rw [haffects] at haffected
    refine .takes ⟨cutoff, hp, hfault, haffected⟩ hback (by simp [hafter]) ?_
    apply hkept
    rw [any_eq_true] at haffected
    obtain ⟨r, hr, hstale⟩ := haffected
    simp only [staleRunning, decide_eq_true_eq] at hstale
    simp [Held, hr, hstale.1]
  · refine .safe ?_ hback (.leave (by simpa using hafter) (.inr hkept))
    intro ⟨cutoff', hp', hfault, hstale⟩
    obtain rfl : cutoff = cutoff' := by simpa using hp.symm.trans hp'
    exact hnot ⟨hfault, haffects ▸ hstale⟩

theorem actMove_read (hp : (s.calls i).phase = .reread ∨ (s.calls i).phase = .recheck) :
    ActMove s i env (s.act h ev i env) := by
  have htakes : ¬ s.TakesOver i env := by
    intro ⟨cutoff, hp', _⟩
    rcases hp with hp | hp <;> simp [hp] at hp'
  have hact : s.act h ev i env = s.returnRun i env.fault false := by
    rcases hp with hp | hp <;> simp only [act, hp]
  rw [hact]
  rcases returnRun_cases s i env.fault false with ⟨r, hr, hfault, hreturn⟩ | ⟨hnot, hreturn⟩
  · by_cases hstatus : r.status = .failed
    · have hback : s.HandsBackFailed i env := ⟨hp, hfault, by simp [hr, hstatus]⟩
      rw [hreturn]
      refine .strays hback ?_ ?_
      · simp [claimReturns_of_failed _ hstatus, working, pastClaim]
      · simp [claimReturns_of_failed _ hstatus]
    · have hback : ¬ s.HandsBackFailed i env := by simp [HandsBackFailed, hr, hstatus]
      rw [hreturn]
      exact .safe htakes hback (safeMove_claimReturns hstatus)
  · have hback : ¬ s.HandsBackFailed i env := by
      intro ⟨_, hfault, hfailed⟩
      rcases hnot with hnot | hnot
      · simp [hnot] at hfault
      · simp [hnot] at hfailed
    exact .safe htakes hback (safeMove_setPhase hreturn rfl)

theorem act_move : ActMove s i env (s.act h ev i env) := by
  cases hp : (s.calls i).phase with
  | takeover cutoff => exact actMove_takeover hp
  | reread => exact actMove_read (.inl hp)
  | recheck => exact actMove_read (.inr hp)
  | idle | returned =>
    have hact : s.act h ev i env = s := by simp only [act, hp]
    rw [hact]
    exact .safe (by simp [TakesOver, hp]) (by simp [HandsBackFailed, hp])
      (.leave (by simp [hp, pastClaim]) (.inr id))
  | first =>
    exact .safe (by simp [TakesOver, hp]) (by simp [HandsBackFailed, hp]) (safeMove_first hp)
  | retry existing =>
    exact .safe (by simp [TakesOver, hp]) (by simp [HandsBackFailed, hp]) (safeMove_retry hp)
  | rereadClaimed =>
    exact .safe (by simp [TakesOver, hp]) (by simp [HandsBackFailed, hp])
      (safeMove_rereadClaimed hp)
  | create =>
    exact .safe (by simp [TakesOver, hp]) (by simp [HandsBackFailed, hp]) (safeMove_create hp)
  | _ =>
    refine .safe (by simp [TakesOver, hp]) (by simp [HandsBackFailed, hp]) ?_
    exact safeMove_working (by simp [hp, working, pastClaim])

/-! ## Exclusion -/

/-- Calls exclude each other, and a run past its claim is marked as running. -/
def Excluded (s : AgentState ι) : Prop :=
  s.Exclusive ∧ ∀ i, (s.calls i).phase.pastClaim = true → Held s.run = true

def OthersKept (s s' : AgentState ι) (i : ι) : Prop := ∀ j, j ≠ i → s'.calls j = s.calls j

omit [DecidableEq ι] in
theorem excluded_of_only (honly : ∀ j, (s'.calls j).phase.pastClaim = true → j = i)
    (hclaimed : (s'.calls i).phase.working = true → (s'.calls i).claimed = true)
    (hrun : Held s'.run = true) : s'.Excluded := by
  refine ⟨⟨?_, ?_⟩, fun _ _ => hrun⟩
  · intro j k hj hk
    exact (honly j hj).trans (honly k hk).symm
  · intro j hj
    obtain rfl := honly j (pastClaim_of_working hj)
    exact hclaimed hj

theorem SafeMove.excluded (hs : s.Excluded) (hothers : OthersKept s s' i)
    (hmove : SafeMove (s.calls i) (s'.calls i) s.run s'.run) : s'.Excluded := by
  obtain ⟨⟨hone, hclaimed⟩, hheld⟩ := hs
  cases hmove with
  | leave hc' hrun =>
    have hother : ∀ j, (s'.calls j).phase.pastClaim = true → j ≠ i ∧ s'.calls j = s.calls j := by
      intro j hj
      have hne : j ≠ i := by
        rintro rfl
        simp [hc'] at hj
      exact ⟨hne, hothers j hne⟩
    refine ⟨⟨?_, ?_⟩, ?_⟩
    · intro j k hj hk
      exact hone j k ((hother j hj).2 ▸ hj) ((hother k hk).2 ▸ hk)
    · intro j hj
      have hsame := (hother j (pastClaim_of_working hj)).2
      rw [hsame] at hj ⊢
      exact hclaimed j hj
    · intro j hj
      obtain ⟨hne, hsame⟩ := hother j hj
      rw [hsame] at hj
      rcases hrun with hc | hrun
      · exact absurd (hone j i hj hc) hne
      · exact hrun (hheld j hj)
  | keep hc hc' hclaim hrun =>
    refine excluded_of_only ?_ (hclaim (hclaimed i)) (hrun (hheld i hc))
    intro j hj
    by_contra hne
    rw [hothers j hne] at hj
    exact hne (hone j i hj hc)
  | claim hc hc' hclaim hfree hrun =>
    refine excluded_of_only ?_ hclaim hrun
    intro j hj
    by_contra hne
    rw [hothers j hne] at hj
    simp [hheld j hj] at hfree

theorem excluded_setCall (hs : s.Excluded) (hc : c.phase.pastClaim = false) :
    (s.setCall i c).Excluded := by
  refine SafeMove.excluded (i := i) hs ?_ (.leave (by simpa using hc) (.inr id))
  intro j hj
  simp [setCall, hj]

theorem handle_cases (authorizer : Option TopicAuthorizer) :
    s.handle h ev i authorizer = s ∨ s.handle h ev i authorizer = s.setPhase i .returned ∨
      s.handle h ev i authorizer =
        s.setCall i { s.calls i with phase := .first, createdAt := s.now } := by
  unfold handle
  repeat' split
  all_goals simp

theorem excluded_step {op : AgentOp ι} (hs : s.Excluded) (hop : s.Allowed op) :
    (agentStep h ev s op).Excluded := by
  cases op with
  | handle i authorizer =>
    have hcases : s.handle h ev i authorizer = s ∨ _ := handle_cases authorizer
    rcases hcases with hact | hact | hact <;> rw [agentStep, hact]
    · exact hs
    · exact excluded_setCall hs rfl
    · exact excluded_setCall hs rfl
  | crash i => exact excluded_setCall hs rfl
  | tick elapsed => exact hs
  | act i env =>
    cases (act_move : ActMove s i env (s.act h ev i env)) with
    | takes htakes hback hc' hrun =>
      have hnot : ((s.act h ev i env).calls i).phase.working = false := by
        rw [hc']
        rfl
      refine excluded_of_only (i := i) ?_ (fun hw => absurd (hnot.symm.trans hw) nofun) hrun
      intro j hj
      by_contra hne
      rw [agentStep, calls_act_of_ne hne] at hj
      exact hop.1 ⟨htakes, j, hj⟩
    | strays hback _ _ => exact absurd hback hop.2
    | safe _ _ hmove => exact hmove.excluded hs fun j hj => calls_act_of_ne hj

theorem allowed_of_exclusive {op : AgentOp ι} (hs : (agentStep h ev s op).Exclusive) :
    s.Allowed op := by
  cases op with
  | act i env =>
    cases (act_move : ActMove s i env (s.act h ev i env)) with
    | takes htakes hback hc' hrun =>
      refine ⟨?_, hback⟩
      intro ⟨⟨cutoff, hp, _⟩, j, hj⟩
      have hne : j ≠ i := by
        rintro rfl
        simp [hp, pastClaim] at hj
      have hsame : (s.act h ev i env).calls j = s.calls j := calls_act_of_ne hne
      refine hne (hs.1 j i ?_ ?_)
      · rw [agentStep, hsame]
        exact hj
      · rw [agentStep, hc']
        rfl
    | strays _ hc' hclaimed =>
      have hcontra := hs.2 i hc'
      rw [agentStep, hclaimed] at hcontra
      cases hcontra
    | safe htakes hback _ => exact ⟨fun hheld => htakes hheld.1, hback⟩
  | _ => trivial

omit [DecidableEq ι] in
theorem excluded_start (run : Option AgentRun) (now : Int) :
    (start run now : AgentState ι).Excluded :=
  ⟨⟨nofun, nofun⟩, nofun⟩

end AgentState

open AgentState in
/-- At every moment of a run at most one call is past its claim, and only calls that claimed the
run go on, exactly when no stale run is taken over from such a call and no failed run is handed
back to a call that has not claimed it. -/
theorem exclusive_agent_runs_iff {ι : Type} [DecidableEq ι] (h : Harness) (ev : MessageEvent)
    (run : Option AgentRun) (now : Int) (ops : List (AgentOp ι)) :
    (∀ pre, pre <+: ops → (GuardedRun.run (agentStep h ev) (start run now) pre).Exclusive) ↔
      Along (agentStep h ev) Allowed (start run now) ops := by
  rw [good_always_iff_along, and_iff_right (excluded_start run now).1]
  refine along_congr ?_ ?_ (excluded_start run now)
  · intro s op hs
    exact ⟨allowed_of_exclusive, fun hop => (excluded_step hs hop).1⟩
  · intro s op hs hop
    exact excluded_step hs (allowed_of_exclusive hop)

/-! ## Two calls with one run -/

def HandlePhase.modelTime (now : Int) : HandlePhase → Int
  | .model since => now - since
  | _ => 0

/-- No call of the model takes as long as a run may before it counts as stale. -/
def AgentState.ModelsShort {ι : Type} (s : AgentState ι) : Prop :=
  ∀ i, (s.calls i).phase.modelTime s.now < staleAfter

instance {n : ℕ} (s : AgentState (Fin n)) : Decidable s.ModelsShort :=
  inferInstanceAs (Decidable (∀ _, _))

instance {n : ℕ} (s : AgentState (Fin n)) : Decidable s.Exclusive :=
  inferInstanceAs (Decidable (_ ∧ _))

def directHarness : Harness := ⟨10, 2, id, fun c => 32 ≤ c.toNat ∧ c.toNat ≠ 0x7f⟩

def directEvent : MessageEvent where
  eventID := "e"
  msgID := 5
  topic := "p2p_1_2"
  senderID := 1
  msgType := 0
  timestamp := 0
  mentionedAgentIDs := []

/-- A call of `Handle` and its first `n` statements; the model always fails. -/
def handled {ι : Type} (i : ι) (n : ℕ) : List (AgentOp ι) :=
  .handle i (some ⟨none⟩) :: List.replicate n (.act i {})

def statements {ι : Type} (i : ι) (n : ℕ) : List (AgentOp ι) := List.replicate n (.act i {})

def lateRetry : List (AgentOp (Fin 3)) :=
  handled 0 7 ++ [.tick (4 * 60 * 10 ^ 9)] ++ handled 1 3 ++ handled 2 4 ++ statements 1 3 ++
    statements 2 3

def lostCreate : List (AgentOp (Fin 2)) :=
  handled 0 1 ++ handled 1 1 ++ statements 0 6 ++ statements 1 5

open AgentState in
/-- Two calls with a claim have called the model at once, and a call without a claim calls it. -/
theorem model_called_by_two_claims_and_without_claim :
    (∀ pre ∈ lateRetry.inits,
      (run (agentStep directHarness directEvent) (start none 0) pre).ModelsShort) ∧
    (∀ i ∈ [1, 2], (run (agentStep directHarness directEvent) (start none 0) lateRetry).calls i =
        ⟨.model (4 * 60 * 10 ^ 9), true, 4 * 60 * 10 ^ 9⟩) ∧
    (∀ pre ∈ lostCreate.inits,
      (run (agentStep directHarness directEvent) (start none 0) pre).ModelsShort) ∧
    (run (agentStep directHarness directEvent) (start none 0) lostCreate).calls 1 =
      ⟨.model 0, false, 0⟩ ∧
    ¬ (run (agentStep directHarness directEvent) (start none 0) lateRetry).Exclusive ∧
    ¬ (run (agentStep directHarness directEvent) (start none 0) lostCreate).Exclusive := by
  decide

end NonokaIM
