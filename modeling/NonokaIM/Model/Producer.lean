import NonokaIM.Model.Message
import Mathlib.Algebra.Group.Nat.Defs

/-! The gateway's Kafka producer. The writer hands its messages out round-robin: a 32-bit counter,
moved by every message that gets as far as a partition. -/

namespace NonokaIM

/-- A message as Kafka keeps it; `ν` is the type of encoded values. -/
structure KafkaRecord (ν : Type) where
  key : String
  value : ν
  headers : List (String × String)
  deriving DecidableEq

/-- How one `WriteMessages` call ends; `dropped` is accepted in async mode and lost later. -/
inductive WriteOutcome where
  | unrouted (err : String)
  | refused (err : String)
  | lost (err : String)
  | written
  | dropped

def WriteOutcome.routed : WriteOutcome → Bool
  | .unrouted _ => false
  | _ => true

def WriteOutcome.applied : WriteOutcome → Bool
  | .lost _ => true
  | .written => true
  | _ => false

def WriteOutcome.error? : WriteOutcome → Option String
  | .unrouted err => some err
  | .refused err => some err
  | .lost err => some err
  | .written => none
  | .dropped => none

/-- A record in the log of its partition: the `Produce` call that wrote it, and the value of the
counter it was routed with. -/
structure Write (ν : Type) where
  call : ℕ
  counter : ℕ
  record : KafkaRecord ν
  deriving DecidableEq

def Write.partition {ν : Type} (partitions : ℕ) (w : Write ν) : ℕ :=
  w.counter % 2 ^ 32 % partitions

def containsText (s text : String) : Bool := s.toList.tails.any (text.toList.isPrefixOf ·)

def isTransientProduceError (err : String) : Bool :=
  containsText err "Unknown Topic Or Partition" || containsText err "Leader Not Available" ||
    containsText err "Not Leader For Partition"

/-- What happens during one `Produce` call: encoding, attempts, and the end of the context. -/
structure ProduceEnv (ν : Type) where
  marshal : UpstreamMessage → Except String ν
  write : ℕ → WriteOutcome
  ctxDone : ℕ → Bool := fun _ => false

section

variable {ν : Type}

def newRecord (msg : UpstreamMessage) (value : ν) : KafkaRecord ν where
  key := msg.topic
  value := value
  headers := [("sender_id", toString msg.senderID), ("client_msg_id", msg.clientMsgID)]

def writeMessages (env : ProduceEnv ν) (call : ℕ) (record : KafkaRecord ν) (attempt counter : ℕ) :
    List (Write ν) × ℕ :=
  (if (env.write attempt).applied then [⟨call, counter, record⟩] else [],
    if (env.write attempt).routed then counter + 1 else counter)

def writeLoop (env : ProduceEnv ν) (call : ℕ) (record : KafkaRecord ν) (attempt : ℕ) :
    ℕ → ℕ → Except String Unit × List (Write ν) × ℕ
  | 0, counter =>
    match (env.write attempt).error? with
    | none => (.ok (), writeMessages env call record attempt counter)
    | some err =>
      (.error ("write to kafka: " ++ err), writeMessages env call record attempt counter)
  | left + 1, counter =>
    let w := writeMessages env call record attempt counter
    match (env.write attempt).error? with
    | none => (.ok (), w)
    | some err =>
      if env.ctxDone attempt || !isTransientProduceError err then
        (.error ("write to kafka: " ++ err), w)
      else
        let rest := writeLoop env call record (attempt + 1) left w.2
        (rest.1, w.1 ++ rest.2.1, rest.2.2)

def produce (env : ProduceEnv ν) (call : ℕ) (msg : UpstreamMessage) (counter : ℕ) :
    Except String Unit × List (Write ν) × ℕ :=
  match env.marshal msg with
  | .error err => (.error ("marshal upstream message: " ++ err), [], counter)
  | .ok value => writeLoop env call (newRecord msg value) 1 4 counter

def produceAll (call counter : ℕ) : List (ProduceEnv ν × UpstreamMessage) → List (Write ν)
  | [] => []
  | (env, msg) :: calls =>
    let r := produce env call msg counter
    r.2.1 ++ produceAll (call + 1) r.2.2 calls

/-- The logs of the partitions: Kafka keeps the order of writes within each. -/
def partitionLog (partitions : ℕ) (ws : List (Write ν)) (p : ℕ) : List (Write ν) :=
  ws.filter fun w => w.partition partitions = p

variable {env : ProduceEnv ν} {call attempt left counter : ℕ} {record : KafkaRecord ν} {w : Write ν}

theorem mem_writeMessages (hw : w ∈ (writeMessages env call record attempt counter).1) :
    w.call = call ∧ w.record = record := by
  unfold writeMessages at hw
  split at hw
  · rw [List.mem_singleton.mp hw]
    exact ⟨rfl, rfl⟩
  · cases hw

theorem mem_writeLoop (hw : w ∈ (writeLoop env call record attempt left counter).2.1) :
    w.call = call ∧ w.record = record := by
  induction left generalizing attempt counter with
  | zero =>
    unfold writeLoop at hw
    split at hw
    · exact mem_writeMessages hw
    · exact mem_writeMessages hw
  | succ left ih =>
    unfold writeLoop at hw
    split at hw
    · exact mem_writeMessages hw
    split at hw
    · exact mem_writeMessages hw
    · rcases List.mem_append.mp hw with hw | hw
      · exact mem_writeMessages hw
      · exact ih hw

theorem mem_produce {msg : UpstreamMessage} (hw : w ∈ (produce env call msg counter).2.1) :
    w.call = call ∧ w.record.key = msg.topic := by
  unfold produce at hw
  split at hw
  · cases hw
  · have hwrite := mem_writeLoop hw
    exact ⟨hwrite.1, by rw [hwrite.2]; rfl⟩

end

end NonokaIM
