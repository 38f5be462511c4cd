import NonokaIM.Model.AgentHandle

/-! # Failed runs and their retries

Only a row that says so is retried, and the last two statements of `Handle` return their errors
without writing it. -/

namespace NonokaIM

open DocumentStore RunStatus AgentRun Prod

theorem applied_of_not_reported {fault : CallFault} (h : ¬ fault.reported = true) :
    fault.applied = true := by
  cases fault with
  | none => rfl
  | failed | lost => exact absurd rfl h

variable {r : AgentRun}

theorem status_retryFailed (h : r.retryFailed.2 = true) : r.retryFailed.1.status = .running := by
  unfold retryFailed at h ⊢
  split at h
  · next hfailed => rw [if_pos hfailed]
  · cases h

theorem status_takeOver {cutoff : Int} (h : (r.takeOver cutoff).2 = true) :
    (r.takeOver cutoff).1.status = .running := by
  unfold takeOver at h ⊢
  split at h
  · next hstale =>
    rw [if_pos hstale]
    exact (of_decide_eq_true hstale).1
  · cases h

theorem status_retakeRun {env : ClaimEnv} {existing : AgentRun}
    (hfault : ¬ (retakeRun env existing).2.1.reported = true)
    (haffected : (retakeRun env existing).2.2 = true) :
    (retakeRun env existing).1.status = .running := by
  by_cases hrunning : existing.status = .running
  · simp only [retakeRun, if_pos hrunning] at hfault haffected ⊢
    rw [if_pos (applied_of_not_reported hfault)]
    exact status_takeOver haffected
  · simp only [retakeRun, if_neg hrunning] at hfault haffected ⊢
    rw [if_pos (applied_of_not_reported hfault)]
    exact status_retryFailed haffected

theorem returnRow_eq_some {fault : CallFault} {row : Option AgentRun} {claimed : Bool}
    (h : returnRow fault row claimed = some (r, true)) : row = some r ∧ claimed = true := by
  unfold returnRow at h
  split at h
  · cases h
  · obtain ⟨r', hrow, heq⟩ := Option.map_eq_some_iff.mp h
    obtain ⟨rfl, hclaimed⟩ := mk.inj heq
    exact ⟨hrow, hclaimed⟩

theorem status_of_claimed {env : ClaimEnv} {run : AgentRun} {row : Option AgentRun}
    (hrun : run.status = .running) (h : (claimRun env run row).1 = some (r, true)) :
    r.status = .running := by
  unfold claimRun at h
  split at h
  · next existing _ =>
    split at h
    · dsimp only at h
      split at h
      · cases h
      next hfault =>
      obtain ⟨hrow, haffected⟩ := returnRow_eq_some h
      obtain rfl := Option.some.inj hrow
      exact status_retakeRun hfault haffected
    · cases h
  · split at h
    · cases (returnRow_eq_some h).2
    dsimp only at h
    split at h
    · cases (returnRow_eq_some h).2
    · cases h
      exact hrun

theorem claimRun_of_failed {run : AgentRun} (h : r.status = .failed) (readAt takenAt : Int) :
    (claimRun { readAt, takenAt } run (some r)).1.map snd = some true := by
  simp [claimRun, retakeRun, returnRow, retryFailed, CallFault.reported, CallFault.applied, h]

namespace ContextHarness

variable {h : ContextHarness} {env : RunEnv} {t : AgentTables}

def ReachesTurn (h : ContextHarness) (env : RunEnv) (turns : List AgentTurn) : Prop :=
  (env.meets .touch).fault.reported = false ∧ (env.meets .recent).fault.reported = false ∧
    ∃ text, env.runtime (h.runtimeInput env.content (h.rows env turns)) = .ok text ∧
      text.toList.all isSpace = false ∧ h.sendReply env text = none

theorem status_fail (hfail : (env.meets .fail).fault = .none) (err : RunError) :
    (fail env err t).2.run.status = .failed := by
  simp [fail, AgentTables.updateRun, hfail, CallFault.applied]

theorem status_started (hrun : t.run.status = .running) :
    (started env t).run.status = .running := by
  unfold started AgentTables.updateRun
  split
  · rfl
  · exact hrun

theorem handleClaimed_eq_fail (hreach : ¬ ReachesTurn h env t.turns) :
    ∃ err t', h.handleClaimed env t = fail env err t' := by
  unfold handleClaimed
  split
  · exact ⟨_, _, rfl⟩
  next htouch =>
  split
  · exact ⟨_, _, rfl⟩
  next hrecent =>
  unfold respond
  split
  · exact ⟨_, _, rfl⟩
  next text hmodel =>
  split
  · exact ⟨_, _, rfl⟩
  next htext =>
  unfold reply
  split
  · exact ⟨_, _, rfl⟩
  · next hsend =>
    exact absurd ⟨by simpa using htouch, by simpa using hrecent, text, hmodel,
      by simpa using htext, hsend⟩ hreach

theorem handleClaimed_eq_finish (hreach : ReachesTurn h env t.turns) :
    ∃ text, h.handleClaimed env t = h.finish env text (started env t) := by
  obtain ⟨htouch, hrecent, text, hmodel, htext, hsend⟩ := hreach
  refine ⟨text, ?_⟩
  rw [handleClaimed, htouch, if_neg Bool.false_ne_true, hrecent, if_neg Bool.false_ne_true,
    respond, hmodel]
  dsimp only
  rw [htext, if_neg Bool.false_ne_true]
  unfold reply
  rw [hsend]

theorem finish_error_iff {text : String} :
    (h.finish env text t).1 ≠ none ↔
      (env.meets .addTurn).fault.reported = true ∨
        (env.meets .complete).fault.reported = true := by
  unfold finish
  cases (env.meets .addTurn).fault.reported <;> cases (env.meets .complete).fault.reported <;> simp

theorem run_addTurn (fault : CallFault) (turn : AgentTurn) :
    (t.addTurn fault turn).run = t.run := by
  unfold AgentTables.addTurn
  split <;> rfl

theorem run_updateRun (fault : CallFault) (set : AgentRun → AgentRun) :
    (t.updateRun fault set).run = if fault.applied then set t.run else t.run := by
  unfold AgentTables.updateRun
  split <;> rfl

theorem status_finish_ne {text : String} (hrun : t.run.status = .running) :
    (h.finish env text t).2.run.status ≠ .failed := by
  unfold finish
  split
  · rw [run_addTurn, hrun]
    exact noConfusion
  · rw [run_updateRun, run_addTurn]
    split
    · exact noConfusion
    · rw [hrun]
      exact noConfusion

end ContextHarness

/-! ## The call, step by step

The same call among the steps of `AgentState.act`, with nobody else writing the row. -/

namespace AgentState

variable {ι : Type} [DecidableEq ι] (h : ContextHarness) (env : RunEnv) (i : ι)
  (turns : List AgentTurn)

def meets : HandlePhase → HandleEnv
  | .touch => env.meets .touch
  | .start _ => env.meets .start
  | .recent => env.meets .recent
  | .model _ =>
    { env.meets .model with
      output := env.runtime (h.runtimeInput env.content (h.rows env turns)) }
  | .send _ => env.meets .send
  | .addTurn => env.meets .addTurn
  | .complete => env.meets .complete
  | .fail _ => env.meets .fail
  | _ => {}

def advance (s : AgentState ι) : AgentState ι :=
  s.act h.toHarness env.event i (meets h env turns (s.calls i).phase)

def EndsWith (s : AgentState ι) (run : AgentRun) : Prop :=
  ∃ n, (((advance h env i turns)^[n] s).calls i).phase = .returned ∧
    ((advance h env i turns)^[n] s).run = some run

variable {h env i turns} {s : AgentState ι} {t : AgentTables}

theorem endsWith_of_advance {run : AgentRun}
    (hnext : EndsWith h env i turns (advance h env i turns s) run) :
    EndsWith h env i turns s run := by
  obtain ⟨n, hn⟩ := hnext
  exact ⟨n + 1, by rwa [Function.iterate_succ_apply]⟩

theorem endsWith_of_returned {run : AgentRun} (hphase : (s.calls i).phase = .returned)
    (hrun : s.run = some run) : EndsWith h env i turns s run :=
  ⟨0, hphase, hrun⟩

omit [DecidableEq ι] in
theorem updateRun_some (fault : CallFault) (set : AgentRun → AgentRun) (hrun : s.run = some t.run) :
    NonokaIM.updateRun fault set s.run = some (t.updateRun fault set).run := by
  rw [hrun, NonokaIM.updateRun, AgentTables.updateRun]
  split <;> rfl

variable (hnow : ∀ point, env.now point = s.now)
include hnow

theorem endsWith_fail {err : RunError}
    (hphase : (s.calls i).phase = .fail (classifyRunError err)) (hrun : s.run = some t.run) :
    EndsWith h env i turns s (ContextHarness.fail env err t).2.run := by
  apply endsWith_of_advance
  apply endsWith_of_returned
  · simp [advance, act, meets, hphase]
  · simp only [advance, act, meets, hphase, run_setPhase, run_withRun]
    rw [updateRun_some _ _ hrun, ContextHarness.fail, hnow]

variable {text : String}

theorem endsWith_finish (hphase : (s.calls i).phase = .addTurn) (hrun : s.run = some t.run) :
    EndsWith h env i turns s (h.finish env text t).2.run := by
  apply endsWith_of_advance
  unfold ContextHarness.finish
  cases hadd : (env.meets .addTurn).fault.reported with
  | true =>
    apply endsWith_of_returned
    · simp [advance, act, meets, hphase, hadd]
    · simp [advance, act, meets, hphase, hadd, ContextHarness.run_addTurn, hrun]
  | false =>
    apply endsWith_of_advance
    apply endsWith_of_returned
    · simp [advance, act, meets, hphase, hadd]
    · simp only [advance, act, meets, hphase, hadd, Bool.false_eq_true, if_false,
        calls_setPhase, run_setPhase, run_withRun, hnow]
      rw [updateRun_some _ _ hrun, ContextHarness.run_updateRun, ContextHarness.run_updateRun,
        ContextHarness.run_addTurn]
      rfl

theorem advance_send (hphase : (s.calls i).phase = .send text) :
    (advance h env i turns s).now = s.now ∧ (advance h env i turns s).run = s.run ∧
      ((advance h env i turns s).calls i).phase =
        (h.sendReply env text).elim .addTurn fun err => .fail (classifyRunError err) := by
  unfold ContextHarness.sendReply
  rw [hnow]
  cases hreq : (h.replyRequest env.event text).map
      (sendMessage (env.meets .send).authorizer h.botID · s.now) with
  | none => simp [advance, act, meets, hphase, hreq]
  | some answer =>
    cases answer with
    | error e => simp [advance, act, meets, hphase, hreq]
    | ok msg =>
      cases hfault : (env.meets .send).fault <;>
        simp [advance, act, meets, hphase, hreq, hfault, CallFault.applied, CallFault.reported]

theorem endsWith_reply (hphase : (s.calls i).phase = .send text) (hrun : s.run = some t.run) :
    EndsWith h env i turns s (h.reply env text t).2.run := by
  obtain ⟨hnow', hrun', hphase'⟩ := advance_send (h := h) (i := i) hnow hphase
  apply endsWith_of_advance
  rw [← hnow'] at hnow
  unfold ContextHarness.reply
  cases hsend : h.sendReply env text with
  | none =>
    rw [hsend] at hphase'
    exact endsWith_finish hnow hphase' (hrun'.trans hrun)
  | some err =>
    rw [hsend] at hphase'
    exact endsWith_fail hnow hphase' (hrun'.trans hrun)

theorem endsWith_respond {since : Int} (hphase : (s.calls i).phase = .model since)
    (hrun : s.run = some t.run) :
    EndsWith h env i turns s (h.respond env (h.rows env turns) t).2.run := by
  apply endsWith_of_advance
  unfold ContextHarness.respond
  cases hmodel : env.runtime (h.runtimeInput env.content (h.rows env turns)) with
  | error err =>
    refine endsWith_fail ?_ ?_ ?_
    · simpa [advance, act, meets, hphase, hmodel] using hnow
    · simp [advance, act, meets, hphase, hmodel]
    · simp [advance, act, meets, hphase, hmodel, hrun]
  | ok text =>
    dsimp only
    cases htext : text.toList.all isSpace with
    | true =>
      rw [if_pos rfl]
      refine endsWith_fail ?_ ?_ ?_
      · simpa only [advance, act, meets, hphase, hmodel, htext, if_true, now_setPhase] using hnow
      · simp only [advance, act, meets, hphase, hmodel, htext, if_true, calls_setPhase]
      · simp only [advance, act, meets, hphase, hmodel, htext, if_true, run_setPhase, hrun]
    | false =>
      rw [if_neg Bool.false_ne_true]
      refine endsWith_reply ?_ ?_ ?_
      · simpa only [advance, act, meets, hphase, hmodel, htext, Bool.false_eq_true, if_false,
          now_setPhase] using hnow
      · simp only [advance, act, meets, hphase, hmodel, htext, Bool.false_eq_true, if_false,
          calls_setPhase]
      · simp only [advance, act, meets, hphase, hmodel, htext, Bool.false_eq_true, if_false,
          run_setPhase, hrun]

theorem endsWith_recent (hphase : (s.calls i).phase = .recent) (hrun : s.run = some t.run) :
    EndsWith h env i turns s (if (env.meets .recent).fault.reported then
        ContextHarness.fail env (env.meets .recent).err t
      else h.respond env (h.rows env turns) t).2.run := by
  apply endsWith_of_advance
  cases hrecent : (env.meets .recent).fault.reported with
  | true =>
    refine endsWith_fail ?_ ?_ ?_
    · simpa [advance, act, meets, hphase, hrecent] using hnow
    · simp [advance, act, meets, hphase, hrecent]
    · simp [advance, act, meets, hphase, hrecent, hrun]
  | false =>
    have hmodel : ((advance h env i turns s).calls i).phase = .model s.now := by
      simp [advance, act, meets, hphase, hrecent]
    refine endsWith_respond ?_ hmodel ?_
    · simpa [advance, act, meets, hphase, hrecent] using hnow
    · simp [advance, act, meets, hphase, hrecent, hrun]

theorem endsWith_handleClaimed (hphase : (s.calls i).phase = .touch) (hrun : s.run = some t.run) :
    EndsWith h env i t.turns s (h.handleClaimed env t).2.run := by
  apply endsWith_of_advance
  unfold ContextHarness.handleClaimed
  cases htouch : (env.meets .touch).fault.reported with
  | true =>
    refine endsWith_fail ?_ ?_ ?_
    · simpa [advance, act, meets, hphase, htouch] using hnow
    · simp [advance, act, meets, hphase, htouch]
    · simp [advance, act, meets, hphase, htouch, hrun]
  | false =>
    -- the start of the run is written before the history is read
    have hstart : ((advance h env i t.turns s).calls i).phase = .start s.now := by
      simp [advance, act, meets, hphase, htouch]
    have hrun' : (advance h env i t.turns s).run = some t.run := by
      simp [advance, act, meets, hphase, htouch, hrun]
    have hnow' : (advance h env i t.turns s).now = s.now := by
      simp [advance, act, meets, hphase, htouch]
    generalize advance h env i t.turns s = s' at hstart hrun' hnow' ⊢
    apply endsWith_of_advance
    refine endsWith_recent ?_ ?_ ?_
    · simpa [advance, act, meets, hstart, hnow'] using hnow
    · simp [advance, act, meets, hstart]
    · simp only [advance, act, meets, hstart, run_setPhase, run_withRun]
      rw [updateRun_some _ _ hrun', ContextHarness.started, hnow]

end AgentState

section

variable (h : ContextHarness) (env : RunEnv) (turns : List AgentTurn)

open ContextHarness

/-- Every error of a claimed run leaves a failed row, which the next `ClaimRun` claims, exactly if
the call does not get as far as storing its turn and then fails to store it or to complete the
run. -/
theorem failed_run_retried_iff (claim : ClaimEnv) (createdAt : Int) (row : Option AgentRun)
    {r : AgentRun} (hclaim : (claimRun claim (h.newRun env.event createdAt) row).1 = some (r, true))
    (hfail : (env.meets .fail).fault = .none) :
    ((h.handleClaimed env ⟨r, turns⟩).1 ≠ none →
      (h.handleClaimed env ⟨r, turns⟩).2.run.status = .failed ∧
        ∀ run readAt takenAt, (claimRun { readAt, takenAt } run
          (some (h.handleClaimed env ⟨r, turns⟩).2.run)).1.map snd = some true) ↔
      (ReachesTurn h env turns →
        (env.meets .addTurn).fault.reported = false ∧
          (env.meets .complete).fault.reported = false) := by
  have hrunning : r.status = .running := status_of_claimed rfl hclaim
  by_cases hreach : ReachesTurn h env turns
  · obtain ⟨text, hhandle⟩ := handleClaimed_eq_finish (t := ⟨r, turns⟩) hreach
    have hstarted : (started env ⟨r, turns⟩).run.status = .running := status_started hrunning
    have hstatus : (h.finish env text (started env ⟨r, turns⟩)).2.run.status ≠ .failed :=
      status_finish_ne hstarted
    rw [hhandle, finish_error_iff]
    simp [hreach, hstatus]
  · obtain ⟨err, t', hhandle⟩ := handleClaimed_eq_fail (t := ⟨r, turns⟩) hreach
    have hstatus := status_fail (t := t') hfail err
    rw [hhandle]
    refine iff_of_true (fun _ => ⟨hstatus, fun run readAt takenAt => ?_⟩) fun h => absurd h hreach
    exact claimRun_of_failed hstatus readAt takenAt

end

def retryHarness : ContextHarness where
  agentID := 10
  botID := 2
  sha256Hex := id
  isPrint := fun c => 32 ≤ c.toNat
  historyLimit := 8
  maxContextChars := 12000

/-- A direct message of user 1, at which the model answers as given and one call fails. -/
def retryEnv (output : Except RunError String) (failing : RunPoint) : RunEnv where
  event := ⟨1, "e", 5, "p2p_1_2", 1, 0, 0, []⟩
  content := "good morning"
  runID := 1
  runtime := fun _ => output
  now := fun _ => 7
  meets := fun point =>
    { fault := if point = failing then .failed else .none
      authorizer := some ⟨none⟩ }

theorem steps_end_with_call :
    AgentState.EndsWith retryHarness (retryEnv (.ok "okay") .addTurn) () []
      { run := some (retryHarness.newRun ⟨1, "e", 5, "p2p_1_2", 1, 0, 0, []⟩ 3), now := 7,
        calls := fun _ => { phase := .touch } }
      (retryHarness.handleClaimed (retryEnv (.ok "okay") .addTurn)
        ⟨retryHarness.newRun ⟨1, "e", 5, "p2p_1_2", 1, 0, 0, []⟩ 3, []⟩).2.run :=
  AgentState.endsWith_handleClaimed (t := ⟨_, []⟩) (fun _ => rfl) rfl rfl

theorem failed_run_retried_model :
    (retryHarness.handleClaimed (retryEnv (.error .deadlineExceeded) .model)
      ⟨retryHarness.newRun ⟨1, "e", 5, "p2p_1_2", 1, 0, 0, []⟩ 3, []⟩).1 =
        some .deadlineExceeded ∧
    (retryHarness.handleClaimed (retryEnv (.error .deadlineExceeded) .model)
      ⟨retryHarness.newRun ⟨1, "e", 5, "p2p_1_2", 1, 0, 0, []⟩ 3, []⟩).2.run.status = .failed := by
  refine ⟨by decide, ?_⟩
  have hretried := failed_run_retried_iff retryHarness
    (retryEnv (.error .deadlineExceeded) .model) [] {} 3 none rfl rfl
  exact (hretried.mpr (fun _ => ⟨rfl, rfl⟩) (by decide)).1

/-- A turn that cannot be stored leaves a running row after the reply is sent: the error is
returned, and the next call finds nothing to claim. -/
theorem run_left_running :
    (claimRun {} (retryHarness.newRun ⟨1, "e", 5, "p2p_1_2", 1, 0, 0, []⟩ 3) none).1 =
      some (retryHarness.newRun ⟨1, "e", 5, "p2p_1_2", 1, 0, 0, []⟩ 3, true) ∧
    (retryHarness.handleClaimed (retryEnv (.ok "okay") .addTurn)
      ⟨retryHarness.newRun ⟨1, "e", 5, "p2p_1_2", 1, 0, 0, []⟩ 3, []⟩).1 = some .other ∧
    (retryHarness.handleClaimed (retryEnv (.ok "okay") .addTurn)
      ⟨retryHarness.newRun ⟨1, "e", 5, "p2p_1_2", 1, 0, 0, []⟩ 3, []⟩).2.run.status = .running ∧
    (claimRun { readAt := 8 } (retryHarness.newRun ⟨1, "e", 5, "p2p_1_2", 1, 0, 0, []⟩ 8)
      (some (retryHarness.handleClaimed (retryEnv (.ok "okay") .addTurn)
        ⟨retryHarness.newRun ⟨1, "e", 5, "p2p_1_2", 1, 0, 0, []⟩ 3, []⟩).2.run)).1.map
          snd = some false := by
  decide

end NonokaIM
