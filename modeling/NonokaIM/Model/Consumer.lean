import NonokaIM.Model.Producer
import NonokaIM.Library.GuardedRun
import Mathlib.Logic.Function.Basic
import NonokaIM.Model.Topic

/-! The Kafka consumer: one reader, whose `ReadMessage` commits in a consumer group, and workers
with a channel each, which commit in batches. -/

namespace NonokaIM

open DocumentStore Function

structure KafkaConsumerConfig where
  topic : String := ""
  groupID : String := ""
  workerCount : Int := 0
  maxRetries : Int := 0
  commitBatchSize : Int := 0
  dlqTopic : String := ""

structure KafkaConsumer where
  groupID : String
  workerCount : ℕ
  maxRetries : ℕ
  commitBatchSize : ℕ
  dlqTopic : String

def defaultCommitBatchSize : ℕ := 100

/-- Values that are not positive are replaced by defaults. -/
def newKafkaConsumer (numCPU : ℕ) (cfg : KafkaConsumerConfig) : KafkaConsumer where
  groupID := cfg.groupID
  workerCount := if cfg.workerCount ≤ 0 then max numCPU 2 else cfg.workerCount.toNat
  maxRetries := cfg.maxRetries.toNat
  commitBatchSize :=
    if cfg.commitBatchSize ≤ 0 then defaultCommitBatchSize else cfg.commitBatchSize.toNat
  dlqTopic := if cfg.dlqTopic = "" then cfg.topic ++ "-dlq" else cfg.dlqTopic

/-! ## One message -/

/-- What happens while a message is handled: the attempts, the backoffs, the dead-letter topic. -/
structure HandlerEnv where
  result : ℕ → Except String Unit
  interrupted : ℕ → Bool := fun _ => false
  dlq : CallFault := .none
  time : String := ""

inductive Attempts where
  | handled
  | interrupted
  | exhausted (lastErr : String)

def tryHandler (env : HandlerEnv) (attempt : ℕ) : ℕ → Attempts
  | 0 =>
    match env.result attempt with
    | .ok () => .handled
    | .error e => .exhausted e
  | left + 1 =>
    match env.result attempt with
    | .ok () => .handled
    | .error _ =>
      if env.interrupted attempt then .interrupted else tryHandler env (attempt + 1) left

def headerValue (headers : List (String × String)) (key : String) : Option String :=
  (headers.reverse.find? (·.1 = key)).map Prod.snd

/-- `strconv.Atoi` is `ParseInt` with 64 bits. -/
def getRetryCount (headers : List (String × String)) : ℕ :=
  match (headerValue headers "x-retry-count").bind fun v => parseInt64 v.toList with
  | some n => n.toNat
  | none => 0

def deadLetter {ν : Type} (record : KafkaRecord ν) (lastErr time : String) : KafkaRecord ν :=
  { record with headers := record.headers ++
      [("x-retry-count", toString (getRetryCount record.headers)), ("x-dlq-reason", lastErr),
        ("x-dlq-time", time)] }

structure Consumed (ν : Type) where
  partition : ℕ
  offset : ℕ
  record : KafkaRecord ν
  deriving DecidableEq

/-- `handleMessage`: whether the message is fully processed, whether the handler succeeded, and
what was written to the dead-letter topic. -/
def KafkaConsumer.handleMessage {ν : Type} (k : KafkaConsumer) (env : HandlerEnv)
    (record : KafkaRecord ν) : Bool × Bool × Option (KafkaRecord ν) :=
  match tryHandler env 0 k.maxRetries with
  | .handled => (true, true, none)
  | .interrupted => (false, false, none)
  | .exhausted lastErr =>
    (!env.dlq.reported, false,
      if env.dlq.applied then some (deadLetter record lastErr env.time) else none)

/-! ## Reader and workers -/

/-- `position` is the next offset to fetch, `committed` the next one the group will consume, and
`given` lists the messages as the handler received them. -/
structure ConsumerState (ν : Type) where
  position : ℕ → ℕ
  committed : ℕ → ℕ
  assigned : ℕ → Bool := fun _ => true
  reading : Option (Consumed ν) := none
  chans : ℕ → List (Consumed ν) := fun _ => []
  pending : ℕ → List (Consumed ν) := fun _ => []
  left : ℕ → Bool := fun _ => false
  stopped : Bool := false
  readerLeft : Bool := false
  given : List (Consumed ν) := []
  handled : List (Consumed ν) := []
  deadLetters : List (Consumed ν × KafkaRecord ν) := []

inductive ConsumerEvent where
  | read (partition : ℕ) (commit : CallFault)
  | dispatch
  | handle (worker : ℕ) (env : HandlerEnv) (commit : CallFault)
  | panic (worker : ℕ)
  | tick (worker : ℕ) (commit : CallFault)
  | stop
  | leaveReader
  | leave (worker : ℕ) (commit : CallFault)

namespace ConsumerState

variable {ν : Type} (k : KafkaConsumer) (log : ℕ → List (KafkaRecord ν))

def lastOffset (ms : List (Consumed ν)) (p : ℕ) : Option ℕ :=
  ((ms.filter (·.partition = p)).map Consumed.offset).max?

/-- `CommitMessages`: for every partition of the messages, everything up to the largest offset
counts as consumed. Without a group it is an error. -/
def commitMessages (ms : List (Consumed ν)) (fault : CallFault) (c : ConsumerState ν) :
    ConsumerState ν :=
  if k.groupID = "" ∨ fault.applied = false then c
  else
    { c with committed := fun p =>
        match lastOffset ms p with
        | some n => n + 1
        | none => c.committed p }

/-- The reader waits for a message and may get one of this partition. Without a group it stays
with partition 0. -/
def CanRead (c : ConsumerState ν) (p : ℕ) : Prop :=
  c.readerLeft = false ∧ c.reading = none ∧ c.assigned p = true ∧ (k.groupID = "" → p = 0)

instance (k : KafkaConsumer) (c : ConsumerState ν) (p : ℕ) : Decidable (c.CanRead k p) :=
  match h : c.reading with
  | none => decidable_of_iff
      (c.readerLeft = false ∧ c.assigned p = true ∧ (k.groupID = "" → p = 0)) (by simp [CanRead, h])
  | some _ => isFalse (by simp [CanRead, h])

/-- `ReadMessage`: in a group the offset is committed first, and an error of that is returned in
place of the message. -/
def read (p : ℕ) (commit : CallFault) (c : ConsumerState ν) : ConsumerState ν :=
  match (log p)[c.position p]? with
  | none => c
  | some record =>
    let m : Consumed ν := ⟨p, c.position p, record⟩
    let c' := commitMessages k [m] commit
      { c with position := update c.position p (c.position p + 1) }
    if k.groupID ≠ "" ∧ commit.reported then c' else { c' with reading := some m }

/-- The commit of a worker; what is pending is forgotten also when it fails. -/
def commit (w : ℕ) (fault : CallFault) (c : ConsumerState ν) : ConsumerState ν :=
  { commitMessages k (c.pending w) fault c with pending := update c.pending w [] }

def handle (w : ℕ) (env : HandlerEnv) (fault : CallFault) (m : Consumed ν) (ms : List (Consumed ν))
    (c : ConsumerState ν) : ConsumerState ν :=
  let r := k.handleMessage env m.record
  let c' := { c with
    chans := update c.chans w ms
    given := c.given ++ [m]
    handled := if r.2.1 then c.handled ++ [m] else c.handled
    deadLetters := c.deadLetters ++ (r.2.2.map fun d => (m, d)).toList }
  if r.1 then
    let c'' := { c' with pending := update c'.pending w (c'.pending w ++ [m]) }
    if k.commitBatchSize ≤ (c''.pending w).length then c''.commit k w fault else c''
  else c'

def chanCap : ℕ := 64

def step (c : ConsumerState ν) : ConsumerEvent → ConsumerState ν
  | .read p commit => if c.CanRead k p then c.read k log p commit else c
  | .dispatch =>
    match c.reading with
    | none => c
    | some m =>
      let w := m.partition % k.workerCount
      if (c.chans w).length < chanCap then
        { c with reading := none, chans := update c.chans w (c.chans w ++ [m]) }
      else c
  | .handle w env commit =>
    match c.left w, c.chans w with
    | false, m :: ms => c.handle k w env commit m ms
    | _, _ => c
  | .panic w =>
    match c.left w, c.chans w with
    | false, m :: ms =>
      { c with
        chans := update c.chans w ms
        given := c.given ++ [m]
        left := update c.left w true }
    | _, _ => c
  | .tick w commit => if c.left w then c else c.commit k w commit
  | .stop => { c with stopped := true }
  | .leaveReader => if c.stopped then { c with readerLeft := true, reading := none } else c
  | .leave w commit =>
    if c.left w = false ∧ c.stopped = true then
      { c.commit k w commit with left := update c.left w true }
    else c

def run (c : ConsumerState ν) (es : List ConsumerEvent) : ConsumerState ν :=
  GuardedRun.run (step k log) c es

def init (ν : Type) (start : ℕ → ℕ) : ConsumerState ν where
  position := start
  committed := start

inductive GroupEvent where
  | own (e : ConsumerEvent)
  | rebalance (assigned : ℕ → Bool)

/-- After a rebalance the reader continues at the committed offsets. -/
def groupStep (c : ConsumerState ν) : GroupEvent → ConsumerState ν
  | .own e => c.step k log e
  | .rebalance assigned => { c with assigned := assigned, position := c.committed }

def groupRun (c : ConsumerState ν) (es : List GroupEvent) : ConsumerState ν :=
  GuardedRun.run (groupStep k log) c es

end ConsumerState

end NonokaIM
