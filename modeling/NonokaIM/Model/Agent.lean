import NonokaIM.Model.ReplyBody

/-! The agent worker: `Harness.Handle` with the repository of its runs.

Every statement of the repository is a step, so that calls for one event take turns between any two
of them. All statements select the row of the event, and none deletes it. Times are in
nanoseconds. -/

namespace NonokaIM

open DocumentStore

inductive RunStatus where
  | running
  | completed
  | failed
  deriving DecidableEq

structure AgentRun where
  eventID : String
  agentID : Int
  actorUserID : Int
  topic : String
  msgID : Int
  status : RunStatus
  errorCode : String := ""
  attempts : ℕ
  createdAt : Int
  startedAt : Option Int := none
  finishedAt : Option Int := none
  deriving DecidableEq

def staleAfter : Int := 3 * 60 * 10 ^ 9

def AgentRun.staleRunning (cutoff : Int) (r : AgentRun) : Bool :=
  r.status = .running ∧ r.startedAt.getD r.createdAt < cutoff

/-- `UPDATE … WHERE status = 'failed'`, and whether it affected the row. -/
def AgentRun.retryFailed (r : AgentRun) : AgentRun × Bool :=
  if r.status = .failed then
    ({ r with status := .running, attempts := r.attempts + 1, errorCode := "" }, true)
  else (r, false)

/-- `UPDATE … WHERE status = 'running' AND …`, and whether it affected the row. The run is not
started anew. -/
def AgentRun.takeOver (cutoff : Int) (r : AgentRun) : AgentRun × Bool :=
  if r.staleRunning cutoff then ({ r with attempts := r.attempts + 1, errorCode := "" }, true)
  else (r, false)

/-! ## Replies -/

/-- `MessageService.SendMessage` up to the call of the producer. -/
def sendMessage (authorizer : Option TopicAuthorizer) (userID : Int) (req : SendMessageRequest)
    (now : Int) : Except String UpstreamMessage :=
  if req.topic = "" then .error "topic is required"
  else if req.clientMsgID = "" then .error "client_msg_id is required"
  else if userID = 0 then .error "authentication required"
  else
    match normalizeTopic req.topic with
    | .error e => .error ("invalid topic: " ++ e)
    | .ok topic =>
      match authorizer with
      | none => .error "topic authorization unavailable"
      | some authorizer =>
        match authorizer.canAccessTopic userID topic with
        | .error _ => .error "topic access denied"
        | .ok () =>
          if maxContentSize < req.content.length then .error "message too large"
          else .ok
            { senderID := userID
              topic
              msgType := req.msgType
              content := req.content
              clientMsgID := req.clientMsgID
              timestamp := unixSeconds now
              mentionedUserIDs := req.mentionedUserIDs }

/-- `isPrint` is `strconv.IsPrint`, by which `%q` decides what to escape. -/
structure Harness where
  agentID : Int
  botID : Int
  sha256Hex : String → String
  isPrint : Char → Bool

namespace Harness

variable (h : Harness) (ev : MessageEvent)

def shouldHandle : Bool :=
  if ev.senderID = h.botID then false
  else
    match parseTopicType ev.topic with
    | .group => ev.mentionedAgentIDs.contains h.botID
    | .p2p =>
      match extractUserIDsFromP2PTopic ev.topic with
      | .ok (a, b) => a = h.botID ∨ b = h.botID
      | .error _ => false
    | _ => false

/-- Sixteen bytes of the hash are 32 characters. -/
def stableClientID : String :=
  "agent-" ++ String.ofList ((h.sha256Hex (ev.eventID ++ ":" ++ toString h.agentID)).toList.take 32)

/-- What the server decodes from the body that `HTTPSender.Send` posts with the token of the
bot. -/
def replyRequest (text : String) : Option SendMessageRequest :=
  unmarshalSendMessageRequest (HTTPSender.body h.isPrint ev.topic text (h.stableClientID ev))

def newRun (createdAt : Int) : AgentRun where
  eventID := ev.eventID
  agentID := h.agentID
  actorUserID := ev.senderID
  topic := ev.topic
  msgID := ev.msgID
  status := .running
  attempts := 1
  createdAt := createdAt

end Harness

/-! ## Calls -/

inductive RunError where
  | deadlineExceeded
  | canceled
  | other
  deriving DecidableEq

def classifyRunError : RunError → String
  | .deadlineExceeded => "timeout"
  | .canceled => "canceled"
  | .other => "run_failed"

/-- The statement that a call of `Handle` executes next, `first` to `recheck` being those of
`ClaimRun`. `retry` keeps the row that `first` has read, `takeover` and `start` the clock before the
statement, `model` the time of the call of the model. -/
inductive HandlePhase where
  | idle
  | first
  | retry (existing : AgentRun)
  | takeover (cutoff : Int)
  | rereadClaimed
  | reread
  | create
  | recheck
  | touch
  | start (time : Int)
  | recent
  | model (since : Int)
  | send (text : String)
  | addTurn
  | complete
  | fail (errorCode : String)
  | returned
  deriving DecidableEq

/-- `claimed` is the second result of `ClaimRun`, `createdAt` the time at which it was called. -/
structure HandleCall where
  phase : HandlePhase := .idle
  claimed : Bool := false
  createdAt : Int := 0
  deriving DecidableEq

def HandleCall.claimReturns (c : HandleCall) (claimed : Bool) (run : AgentRun) : HandleCall :=
  { c with
    claimed
    phase :=
      if !claimed && (run.status = .completed || run.status = .running) then .returned
      else .touch }

/-- What a step meets: faults, the authorizer of the message service, and the model's answer. -/
structure HandleEnv where
  fault : CallFault := .none
  err : RunError := .other
  authorizer : Option TopicAuthorizer := none
  output : Except RunError String := .error .other

def afterUpdate (fault : CallFault) (affected : Bool) : HandlePhase :=
  if fault.reported then .returned else if affected then .rereadClaimed else .reread

def updateRun (fault : CallFault) (set : AgentRun → AgentRun) (run : Option AgentRun) :
    Option AgentRun :=
  if fault.applied then run.map set else run

/-- `sent` lists the messages that reached Kafka. -/
structure AgentState (ι : Type) where
  run : Option AgentRun := none
  now : Int := 0
  calls : ι → HandleCall := fun _ => {}
  sent : List UpstreamMessage := []

namespace AgentState

variable {ι : Type} [DecidableEq ι] (h : Harness) (ev : MessageEvent) (s : AgentState ι)

def setCall (i : ι) (c : HandleCall) : AgentState ι :=
  { s with calls := Function.update s.calls i c }

def setPhase (i : ι) (phase : HandlePhase) : AgentState ι :=
  s.setCall i { s.calls i with phase }

def withRun {ι : Type} (s : AgentState ι) (run : Option AgentRun) : AgentState ι := { s with run }

@[simp] theorem calls_setCall (i : ι) (c : HandleCall) : (s.setCall i c).calls i = c := by
  simp [setCall]

@[simp] theorem calls_setPhase (i : ι) (p : HandlePhase) :
    (s.setPhase i p).calls i = { s.calls i with phase := p } := by
  simp [setPhase]

@[simp] theorem run_setCall (i : ι) (c : HandleCall) : (s.setCall i c).run = s.run := rfl

@[simp] theorem run_setPhase (i : ι) (p : HandlePhase) : (s.setPhase i p).run = s.run := rfl

@[simp] theorem now_setPhase (i : ι) (p : HandlePhase) : (s.setPhase i p).now = s.now := rfl

@[simp] theorem calls_withRun {ι : Type} (s : AgentState ι) (run : Option AgentRun) :
    (s.withRun run).calls = s.calls := rfl

@[simp] theorem now_withRun {ι : Type} (s : AgentState ι) (run : Option AgentRun) :
    (s.withRun run).now = s.now := rfl

@[simp] theorem run_withRun {ι : Type} (s : AgentState ι) (run : Option AgentRun) :
    (s.withRun run).run = run := rfl

/-- `Handle` is called: the checks before `ClaimRun`. -/
def handle (i : ι) (authorizer : Option TopicAuthorizer) : AgentState ι :=
  if (s.calls i).phase ≠ .idle then s
  else if !h.shouldHandle ev then s.setPhase i .returned
  else
    match authorizer with
    | none => s.setPhase i .returned
    | some a =>
      match a.canAccessTopic ev.senderID ev.topic, a.canAccessTopic h.botID ev.topic with
      | .ok (), .ok () => s.setCall i { s.calls i with phase := .first, createdAt := s.now }
      | _, _ => s.setPhase i .returned

def returnRun (i : ι) (fault : CallFault) (claimed : Bool) : AgentState ι :=
  match s.run with
  | some r =>
    if fault.reported then s.setPhase i .returned
    else s.setCall i ((s.calls i).claimReturns claimed r)
  | none => s.setPhase i .returned

def act (i : ι) (env : HandleEnv) : AgentState ι :=
  let c := s.calls i
  match c.phase with
  | .idle => s
  | .first =>
    -- an error counts like a row that is not there
    match s.run with
    | none => s.setPhase i .create
    | some r =>
      if env.fault.reported then s.setPhase i .create
      else if r.status = .failed || r.staleRunning (s.now - staleAfter) then
        s.setPhase i (.retry r)
      else s.setCall i (c.claimReturns false r)
  | .retry existing =>
    let affected := s.run.any fun r => r.retryFailed.2
    let s' := s.withRun (updateRun env.fault (fun r => r.retryFailed.1) s.run)
    -- the result of this update is dropped when the run was stale
    if existing.status = .running then s'.setPhase i (.takeover (s.now - staleAfter))
    else s'.setPhase i (afterUpdate env.fault affected)
  | .takeover cutoff =>
    let affected := s.run.any fun r => (r.takeOver cutoff).2
    let s' := s.withRun (updateRun env.fault (fun r => (r.takeOver cutoff).1) s.run)
    s'.setPhase i (afterUpdate env.fault affected)
  | .rereadClaimed => s.returnRun i env.fault true
  | .reread => s.returnRun i env.fault false
  | .create =>
    match s.run with
    | some _ => s.setPhase i .recheck
    | none =>
      let run := h.newRun ev c.createdAt
      let s' := if env.fault.applied then s.withRun (some run) else s
      if env.fault.reported then s'.setPhase i .recheck
      else s'.setCall i (c.claimReturns true run)
  | .recheck => s.returnRun i env.fault false
  | .touch =>
    if env.fault.reported then s.setPhase i (.fail (classifyRunError env.err))
    else s.setPhase i (.start s.now)
  | .start time =>
    -- an error of this update is ignored
    let set (r : AgentRun) := { r with status := .running, startedAt := some time }
    (s.withRun (updateRun env.fault set s.run)).setPhase i .recent
  | .recent =>
    if env.fault.reported then s.setPhase i (.fail (classifyRunError env.err))
    else s.setPhase i (.model s.now)
  | .model _ =>
    match env.output with
    | .error e => s.setPhase i (.fail (classifyRunError e))
    | .ok text =>
      if text.toList.all isSpace then s.setPhase i (.fail (classifyRunError .other))
      else s.setPhase i (.send text)
  | .send text =>
    -- a body that the server cannot decode is answered with an error status, too
    match (h.replyRequest ev text).map (sendMessage env.authorizer h.botID · s.now) with
    | none | some (.error _) => s.setPhase i (.fail (classifyRunError .other))
    | some (.ok msg) =>
      let s' := if env.fault.applied then { s with sent := s.sent ++ [msg] } else s
      if env.fault.reported then s'.setPhase i (.fail (classifyRunError env.err))
      else s'.setPhase i .addTurn
  | .addTurn => if env.fault.reported then s.setPhase i .returned else s.setPhase i .complete
  | .complete =>
    let set (r : AgentRun) := { r with status := .completed, finishedAt := some s.now }
    (s.withRun (updateRun env.fault set s.run)).setPhase i .returned
  | .fail errorCode =>
    let set (r : AgentRun) :=
      { r with status := .failed, errorCode, finishedAt := some s.now }
    (s.withRun (updateRun env.fault set s.run)).setPhase i .returned
  | .returned => s

end AgentState

inductive AgentOp (ι : Type) where
  | handle (i : ι) (authorizer : Option TopicAuthorizer)
  | act (i : ι) (env : HandleEnv)
  | crash (i : ι)
  | tick (elapsed : ℕ)

def agentStep {ι : Type} [DecidableEq ι] (h : Harness) (ev : MessageEvent) (s : AgentState ι) :
    AgentOp ι → AgentState ι
  | .handle i authorizer => s.handle h ev i authorizer
  | .act i env => s.act h ev i env
  | .crash i => s.setPhase i .returned
  | .tick elapsed => { s with now := s.now + elapsed }

end NonokaIM
