import NonokaIM.Library.DocumentUpdate
import NonokaIM.Model.Storage

/-! The relay of the agent outbox: claiming, publishing and marking are statements of their own.
Event ids are unique and stand for `_id`. Times are in nanoseconds. -/

namespace NonokaIM

open DocumentStore

/-! ## Statements -/

/-- The filter of `claimAgentEvent`. A field that is not there matches no bound. -/
def AgentEventOutbox.claimable (now : Int) (r : AgentEventOutbox) : Bool :=
  (r.status = .pending ∧ r.nextAttemptAt.any (· ≤ now)) ∨
    (r.status = .processing ∧ r.lockedUntil.any (· < now))

/-- The filter of the two statements that end a claim. -/
def AgentEventOutbox.held (eventID : String) (r : AgentEventOutbox) : Bool :=
  r.eventID = eventID ∧ r.status = .processing

def claimUpdate (now : Int) : Update outboxKeys where
  set r :=
    { r with
      status := .processing
      lockedUntil := some (now + 60 * 10 ^ 9)
      attempts := r.attempts + 1 }
  keys_set _ := rfl

def publishedUpdate (now : Int) : Update outboxKeys where
  set r :=
    { r with
      status := .published
      publishedAt := some now
      lockedUntil := none
      lastError := none }
  keys_set _ := rfl

def failUpdate (now : Int) (eventErr : String) (backoff : Int) : Update outboxKeys where
  set r :=
    { r with
      status := .pending
      nextAttemptAt := some (now + backoff)
      lastError := some eventErr
      lockedUntil := none }
  keys_set _ := rfl

def oldestClaimable (now : Int) (outbox : Collection outboxKeys) : List AgentEventOutbox :=
  let due := outbox.rows.filter (·.claimable now)
  due.filter fun r => due.all fun x => r.createdAt ≤ x.createdAt

/-- Claim an oldest row, `pick` if it is one of them. The row is returned as it is afterwards. -/
def claimAgentEvent (now : Int) (pick : String) (outbox : Collection outboxKeys) :
    Option AgentEventOutbox × Collection outboxKeys :=
  let oldest := oldestClaimable now outbox
  match oldest.find? (·.eventID = pick) <|> oldest.head? with
  | none => (none, outbox)
  | some row =>
    (some ((claimUpdate now).set row),
      outbox.update (fun r => r.eventID = row.eventID ∧ r.claimable now) (claimUpdate now))

def markAgentEventPublished (now : Int) (eventID : String) (outbox : Collection outboxKeys) :
    Collection outboxKeys :=
  outbox.update (·.held eventID) (publishedUpdate now)

def failAgentEvent (now : Int) (eventID : String) (eventErr : String) (backoff : Int)
    (outbox : Collection outboxKeys) : Collection outboxKeys :=
  outbox.update (·.held eventID) (failUpdate now eventErr backoff)

/-! ## Relays -/

/-- How far a relay has come. `left` counts the rows that the loop may still take. -/
inductive RelayPhase where
  | idle
  | claiming (left : ℕ) (backoff : Int)
  | publishing (row : AgentEventOutbox) (left : ℕ) (backoff : Int)
  | marking (row : AgentEventOutbox) (left : ℕ) (backoff : Int)
  | failing (row : AgentEventOutbox) (err : String) (backoff : Int)

/-- What comes of a claimed row: a payload that cannot be decoded, or the answer of `Publish`. -/
inductive PublishOutcome where
  | undecodable (err : String)
  | failed (err : String)
  | success

/-- `published` is not in the source: the payloads for which `Publish` returned no error. -/
structure OutboxState (ι : Type) where
  store : Store := {}
  now : Int := 0
  relays : ι → RelayPhase := fun _ => .idle
  published : List MessageEvent := []

namespace OutboxState

variable {ι : Type} [DecidableEq ι] (s : OutboxState ι)

def setRelay (i : ι) (phase : RelayPhase) : OutboxState ι :=
  { s with relays := Function.update s.relays i phase }

def setOutbox (outbox : Collection outboxKeys) : OutboxState ι :=
  { s with store := { s.store with agentOutbox := outbox } }

/-- `RelayAgentEvents` is called, with its defaults for a limit and a backoff that are not
positive. -/
def start (i : ι) (limit : Int) (retryBackoff : Int) : OutboxState ι :=
  match s.relays i with
  | .idle =>
    s.setRelay i (.claiming (if limit ≤ 0 then 32 else limit.toNat)
      (if retryBackoff ≤ 0 then 10 ^ 9 else retryBackoff))
  | _ => s

/-- A claim whose reply is lost has changed the row, but the relay does not know which. -/
def claim (i : ι) (pick : String) (fault : CallFault) (left : ℕ) (backoff : Int) : OutboxState ι :=
  let claimed := claimAgentEvent s.now pick s.store.agentOutbox
  let s' := if fault.applied then s.setOutbox claimed.2 else s
  if fault.reported then s'.setRelay i .idle
  else
    match claimed.1 with
    | none => s'.setRelay i .idle
    | some row => s'.setRelay i (.publishing row left backoff)

def publish (i : ι) (outcome : PublishOutcome) (row : AgentEventOutbox) (left : ℕ)
    (backoff : Int) : OutboxState ι :=
  match outcome with
  | .undecodable err => s.setRelay i (.failing row err backoff)
  | .failed err => s.setRelay i (.failing row err backoff)
  | .success =>
    { s.setRelay i (.marking row left backoff) with published := row.payload :: s.published }

/-- The next row is taken while the limit allows it and the statement reports no error. -/
def mark (i : ι) (fault : CallFault) (row : AgentEventOutbox) (left : ℕ) (backoff : Int) :
    OutboxState ι :=
  let s' :=
    if fault.applied then
      s.setOutbox (markAgentEventPublished s.now row.eventID s.store.agentOutbox)
    else s
  s'.setRelay i (if fault.reported then .idle else .claiming left backoff)

/-- The relay returns after a row that was not published, whatever becomes of the statement. -/
def fail (i : ι) (fault : CallFault) (row : AgentEventOutbox) (err : String) (backoff : Int) :
    OutboxState ι :=
  let s' :=
    if fault.applied then
      s.setOutbox (failAgentEvent s.now row.eventID err backoff s.store.agentOutbox)
    else s
  s'.setRelay i .idle

/-- The next step of a relay: `pick`, `fault` and `outcome` are read by the steps they concern. -/
def advance (i : ι) (pick : String) (fault : CallFault) (outcome : PublishOutcome) :
    OutboxState ι :=
  match s.relays i with
  | .idle => s
  | .claiming 0 _ => s.setRelay i .idle
  | .claiming (left + 1) backoff => s.claim i pick fault left backoff
  | .publishing row left backoff => s.publish i outcome row left backoff
  | .marking row left backoff => s.mark i fault row left backoff
  | .failing row err backoff => s.fail i fault row err backoff

end OutboxState

inductive OutboxOp (ι : Type) where
  | sleep (d : ℕ)
  | enqueue (ev : MessageEvent) (fault : TxFault)
  | start (relay : ι) (limit retryBackoff : Int)
  | advance (relay : ι) (pick : String) (fault : CallFault) (outcome : PublishOutcome)
  | crash (relay : ι)

def outboxStep {ι : Type} [DecidableEq ι] (s : OutboxState ι) : OutboxOp ι → OutboxState ι
  | .sleep d => { s with now := s.now + d }
  | .enqueue ev fault => { s with store := (enqueueAgentEvent s.now ev fault s.store).2.2 }
  | .start i limit retryBackoff => s.start i limit retryBackoff
  | .advance i pick fault outcome => s.advance i pick fault outcome
  | .crash i => s.setRelay i .idle

end NonokaIM
