import NonokaIM.Library.WithinBudget
import NonokaIM.Model.Agent

/-! One call of `Handle` on its own, with the turns that it gives to the model. -/

namespace NonokaIM

open DocumentStore

/-! ## Claims -/

/-- The faults of the statements of `ClaimRun`, and the clock when the row has been read and when
a stale run is taken over. -/
structure ClaimEnv where
  first : CallFault := .none
  retry : CallFault := .none
  takeover : CallFault := .none
  reread : CallFault := .none
  create : CallFault := .none
  recheck : CallFault := .none
  readAt : Int := 0
  takenAt : Int := 0

def returnRow (fault : CallFault) (row : Option AgentRun) (claimed : Bool) :
    Option (AgentRun × Bool) :=
  if fault.reported then none else row.map fun r => (r, claimed)

/-- The two updates of `ClaimRun`: the row, and the fault and the count of the one that is looked
at. -/
def retakeRun (env : ClaimEnv) (existing : AgentRun) : AgentRun × CallFault × Bool :=
  let retried := if env.retry.applied then existing.retryFailed.1 else existing
  if existing.status = .running then
    let cutoff := env.takenAt - staleAfter
    (if env.takeover.applied then (retried.takeOver cutoff).1 else retried, env.takeover,
      (retried.takeOver cutoff).2)
  else (retried, env.retry, existing.retryFailed.2)

/-- `ClaimRun`: the row and whether it was claimed, or an error; and what is stored then. -/
def claimRun (env : ClaimEnv) (run : AgentRun) (row : Option AgentRun) :
    Option (AgentRun × Bool) × Option AgentRun :=
  match if env.first.reported then none else row with
  | some existing =>
    if existing.status = .failed ∨ existing.staleRunning (env.readAt - staleAfter) = true then
      let (updated, fault, affected) := retakeRun env existing
      if fault.reported then (none, some updated)
      else (returnRow env.reread (some updated) affected, some updated)
    else (some (existing, false), row)
  | none =>
    match row with
    | some existing => (returnRow env.recheck (some existing) false, row)
    | none =>
      let stored := if env.create.applied then some run else none
      if env.create.reported then (returnRow env.recheck stored false, stored)
      else (some (run, true), stored)

/-! ## Context -/

structure AgentTurn where
  agentID : Int
  actorUserID : Int
  topic : String
  runID : ℕ
  input : String
  output : String
  createdAt : Int
  deriving DecidableEq

structure Turn where
  input : String
  output : String
  deriving DecidableEq

def AgentTurn.turn (row : AgentTurn) : Turn := ⟨row.input, row.output⟩

def AgentTurn.cost (row : AgentTurn) : ℕ := row.input.utf8ByteSize + row.output.utf8ByteSize

def AgentTurn.ofSession (agentID actorID : Int) (topic : String) (row : AgentTurn) : Bool :=
  row.agentID = agentID ∧ row.actorUserID = actorID ∧ row.topic = topic

/-- `ORDER BY created_at DESC LIMIT …`. -/
def recentTurns (turns : List AgentTurn) (agentID actorID : Int) (topic : String) (limit : Int) :
    List AgentTurn :=
  let limit := if limit ≤ 0 then 10 else limit
  ((turns.filter (AgentTurn.ofSession agentID actorID topic)).insertionSort
    fun a b => b.createdAt ≤ a.createdAt).take limit.toNat

def truncateRunText (s : String) (maxChars : ℕ) : String :=
  if maxChars < s.toList.length then .ofList (s.toList.take maxChars) else s

structure ContextHarness extends Harness where
  historyLimit : Int
  maxContextChars : Int

structure RuntimeInput where
  text : String
  history : List Turn

namespace ContextHarness

variable (h : ContextHarness)

def limit : Int := if h.historyLimit ≤ 0 then 8 else h.historyLimit

def budget : ℕ := if h.maxContextChars ≤ 0 then 12000 else h.maxContextChars.toNat

/-- The loop over the rows starts at their end. -/
def runtimeInput (content : String) (rows : List AgentTurn) : RuntimeInput :=
  let currentText := truncateRunText content h.budget
  { text := currentText
    history :=
      (WithinBudget.keep AgentTurn.cost h.budget currentText.utf8ByteSize rows.reverse).map
        AgentTurn.turn }

end ContextHarness

/-! ## Runs -/

inductive RunPoint where
  | touch
  | start
  | recent
  | model
  | send
  | addTurn
  | complete
  | fail
  deriving DecidableEq

structure AgentTables where
  run : AgentRun
  turns : List AgentTurn := []

def AgentTables.updateRun (t : AgentTables) (fault : CallFault) (set : AgentRun → AgentRun) :
    AgentTables :=
  if fault.applied then { t with run := set t.run } else t

/-- Turns have a unique index on the run. -/
def AgentTables.addTurn (t : AgentTables) (fault : CallFault) (turn : AgentTurn) : AgentTables :=
  if fault.applied ∧ ∀ row ∈ t.turns, row.runID ≠ turn.runID then
    { t with turns := t.turns ++ [turn] }
  else t

/-- What a call meets: the event with its text, the key of the row, the model, and for each call
the clock and what it comes to. -/
structure RunEnv where
  event : MessageEvent
  content : String
  runID : ℕ
  runtime : RuntimeInput → Except RunError String
  now : RunPoint → Int
  meets : RunPoint → HandleEnv

namespace ContextHarness

variable (h : ContextHarness) (env : RunEnv)

def fail (err : RunError) (t : AgentTables) : Option RunError × AgentTables :=
  (some err, t.updateRun (env.meets .fail).fault fun r =>
    { r with
      status := .failed
      errorCode := classifyRunError err
      finishedAt := some (env.now .fail) })

def sendReply (text : String) : Option RunError :=
  match (h.replyRequest env.event text).map
      (sendMessage (env.meets .send).authorizer h.botID · (env.now .send)) with
  | none | some (.error _) => some .other
  | some (.ok _) => if (env.meets .send).fault.reported then some (env.meets .send).err else none

/-- `Handle` once the reply is sent. -/
def finish (text : String) (t : AgentTables) : Option RunError × AgentTables :=
  let turn : AgentTurn :=
    { agentID := h.agentID
      actorUserID := env.event.senderID
      topic := env.event.topic
      runID := env.runID
      input := env.content
      output := text
      createdAt := env.now .addTurn }
  let t := t.addTurn (env.meets .addTurn).fault turn
  if (env.meets .addTurn).fault.reported then (some (env.meets .addTurn).err, t)
  else
    let t := t.updateRun (env.meets .complete).fault fun r =>
      { r with status := .completed, finishedAt := some (env.now .complete) }
    (if (env.meets .complete).fault.reported then some (env.meets .complete).err else none, t)

def reply (text : String) (t : AgentTables) : Option RunError × AgentTables :=
  match h.sendReply env text with
  | some err => fail env err t
  | none => h.finish env text t

def respond (rows : List AgentTurn) (t : AgentTables) : Option RunError × AgentTables :=
  match env.runtime (h.runtimeInput env.content rows) with
  | .error err => fail env err t
  | .ok text => if text.toList.all isSpace then fail env .other t else h.reply env text t

/-- The start of the run is written; an error is ignored. -/
def started (t : AgentTables) : AgentTables :=
  t.updateRun (env.meets .start).fault fun r =>
    { r with status := .running, startedAt := some (env.now .start) }

def rows (turns : List AgentTurn) : List AgentTurn :=
  recentTurns turns h.agentID env.event.senderID env.event.topic h.limit

/-- `Handle` after `ClaimRun`: the error it returns, and what is stored then. -/
def handleClaimed (t : AgentTables) : Option RunError × AgentTables :=
  if (env.meets .touch).fault.reported then fail env (env.meets .touch).err t
  else if (env.meets .recent).fault.reported then
    fail env (env.meets .recent).err (started env t)
  else h.respond env (h.rows env t.turns) (started env t)

end ContextHarness

end NonokaIM
