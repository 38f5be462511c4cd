import NonokaIM.Library.DocumentStore
import NonokaIM.Library.GuardedRun
import Mathlib.Logic.Function.Basic
import Mathlib.Algebra.Group.Nat.Defs

/-! Sequence numbers of topics, taken in blocks from a Redis counter, and message ids. -/

namespace NonokaIM

open DocumentStore Function

def defaultSeqBatchSize : ℕ := 100

/-- `INCRBY`, with the value afterwards; an increment beyond the largest integer is refused. -/
def incrBy (counter n : ℕ) (fault : CallFault) : ℕ × Except String ℕ :=
  if counter + n < 2 ^ 63 then
    (if fault.applied then counter + n else counter,
      if fault.reported then .error "redis" else .ok (counter + n))
  else (counter, .error "ERR increment or decrement would overflow")

theorem incrBy_of_lt {counter n : ℕ} (h : counter + n < 2 ^ 63) (fault : CallFault) :
    incrBy counter n fault = (if fault.applied then counter + n else counter,
      if fault.reported then .error "redis" else .ok (counter + n)) :=
  if_pos h

theorem incrBy_of_not_lt {counter n : ℕ} (h : ¬ counter + n < 2 ^ 63) (fault : CallFault) :
    incrBy counter n fault = (counter, .error "ERR increment or decrement would overflow") :=
  if_neg h

/-- A locally cached range; `max` is inclusive and the zero range is empty. -/
structure SeqRange where
  next : ℕ := 0
  max : ℕ := 0

def SeqRange.Available (r : SeqRange) : Prop := 0 < r.next ∧ r.next ≤ r.max
  deriving Decidable

structure SeqGenerator where
  ranges : String → Option SeqRange := fun _ => none

namespace SeqGenerator

/-- `LoadOrStore` with an empty range. -/
def range (g : SeqGenerator) (topic : String) : SeqRange := (g.ranges topic).getD {}

def setRange (g : SeqGenerator) (topic : String) (r : SeqRange) : SeqGenerator :=
  { g with ranges := update g.ranges topic (some r) }

@[simp] theorem range_setRange_self (g : SeqGenerator) (topic : String) (r : SeqRange) :
    (g.setRange topic r).range topic = r := by
  simp [range, setRange]

theorem range_setRange_of_ne (g : SeqGenerator) {topic t : String} (r : SeqRange)
    (h : t ≠ topic) : (g.setRange topic r).range t = g.range t := by
  simp [range, setRange, update_of_ne h]

def serve (g : SeqGenerator) (topic : String) : ℕ × SeqGenerator :=
  let sr := g.range topic
  (sr.next, g.setRange topic { sr with next := sr.next + 1 })

def refill (g : SeqGenerator) (topic : String) (endSeq : ℕ) : ℕ × SeqGenerator :=
  let first := endSeq - defaultSeqBatchSize + 1
  (first, g.setRange topic { next := first + 1, max := endSeq })

/-- The next seq of a topic, over the value of the topic's Redis counter. The result comes with
the generator and the counter afterwards. -/
def nextSeq (g : SeqGenerator) (topic : String) (counter : ℕ) (fault : CallFault) :
    Except String ℕ × SeqGenerator × ℕ :=
  if (g.range topic).Available then (.ok (g.serve topic).1, (g.serve topic).2, counter)
  else
    match incrBy counter defaultSeqBatchSize fault with
    | (counter', .ok endSeq) => (.ok (g.refill topic endSeq).1, (g.refill topic endSeq).2, counter')
    | (counter', .error e) =>
      (.error ("redis incrby failed for topic " ++ topic ++ ": " ++ e),
        g.setRange topic (g.range topic), counter')

end SeqGenerator

def seqBlock (endSeq count : ℕ) : List ℕ := List.range' (endSeq - count + 1) count

/-! ## Generators that share the counters

`NextSeq` holds the lock of its range while it waits for Redis; `NextSeqBatch` takes no lock. A
reply arrives some time after its increment. -/

/-- Who received a seq: a `NextSeq` call of a process, or a `NextSeqBatch` call. -/
inductive Caller (ι : Type) where
  | single (process : ι)
  | batch (call : ℕ)
  deriving DecidableEq

structure SeqReturn (ι : Type) where
  caller : Caller ι
  topic : String
  seq : ℕ

structure BatchCall where
  topic : String
  count : ℕ
  reply : Except String ℕ

structure SeqSystem (ι : Type) where
  counter : String → ℕ
  gens : ι → SeqGenerator := fun _ => {}
  waiting : ι → String → Option (Except String ℕ) := fun _ _ => none
  batches : ℕ → Option BatchCall := fun _ => none
  log : List (SeqReturn ι) := []

inductive SeqEvent (ι : Type) where
  | nextSeq (process : ι) (topic : String) (fault : CallFault)
  | reply (process : ι) (topic : String)
  | nextSeqBatch (call : ℕ) (topic : String) (count : Int) (fault : CallFault)
  | batchReply (call : ℕ)

namespace SeqSystem

variable {ι : Type} [DecidableEq ι]

/-- A `NextSeq` call that has the lock either returns a cached seq or sends its increment. -/
def start (s : SeqSystem ι) (i : ι) (topic : String) (fault : CallFault) : SeqSystem ι :=
  let g := s.gens i
  if (g.range topic).Available then
    { s with
      gens := update s.gens i (g.serve topic).2
      log := s.log ++ [⟨.single i, topic, (g.serve topic).1⟩] }
  else
    let r := incrBy (s.counter topic) defaultSeqBatchSize fault
    { s with
      counter := update s.counter topic r.1
      waiting := update s.waiting i (update (s.waiting i) topic (some r.2)) }

/-- The waiting call receives its reply, returns and gives the lock back. -/
def finish (s : SeqSystem ι) (i : ι) (topic : String) (reply : Except String ℕ) : SeqSystem ι :=
  let s' := { s with
    waiting := update s.waiting i (update (s.waiting i) topic none) }
  let g := s.gens i
  match reply with
  | .ok endSeq =>
    { s' with
      gens := update s.gens i (g.refill topic endSeq).2
      log := s.log ++ [⟨.single i, topic, (g.refill topic endSeq).1⟩] }
  | .error _ => { s' with gens := update s.gens i (g.setRange topic (g.range topic)) }

/-- A `NextSeqBatch` call returns all seqs of its block. -/
def finishBatch (s : SeqSystem ι) (call : ℕ) (c : BatchCall) : SeqSystem ι :=
  let s' := { s with batches := update s.batches call none }
  match c.reply with
  | .ok endSeq =>
    { s' with log := s.log ++ (seqBlock endSeq c.count).map (⟨.batch call, c.topic, ·⟩) }
  | .error _ => s'

/-- One step. A call on a taken lock, a reply that nobody waits for and a call number in use change
nothing. -/
def step (s : SeqSystem ι) : SeqEvent ι → SeqSystem ι
  | .nextSeq i topic fault =>
    match s.waiting i topic with
    | some _ => s
    | none => s.start i topic fault
  | .reply i topic =>
    match s.waiting i topic with
    | some reply => s.finish i topic reply
    | none => s
  | .nextSeqBatch call topic count fault =>
    match s.batches call with
    | some _ => s
    | none =>
      if count ≤ 0 then s
      else
        let r := incrBy (s.counter topic) count.toNat fault
        { s with
          counter := update s.counter topic r.1
          batches := update s.batches call (some ⟨topic, count.toNat, r.2⟩) }
  | .batchReply call =>
    match s.batches call with
    | some c => s.finishBatch call c
    | none => s

def run (s : SeqSystem ι) (es : List (SeqEvent ι)) : SeqSystem ι := GuardedRun.run step s es

/-- All processes have just started; the counters hold what Redis holds. -/
def init (ι : Type) (counter : String → ℕ) : SeqSystem ι := { counter := counter }

def nextSeq (s : SeqSystem ι) (i : ι) (topic : String) (fault : CallFault) :
    Except String ℕ × SeqSystem ι :=
  let r := (s.gens i).nextSeq topic (s.counter topic) fault
  (r.1,
    { s with
      counter := update s.counter topic r.2.2
      gens := update s.gens i r.2.1
      log := s.log ++ match r.1 with
        | .ok seq => [⟨.single i, topic, seq⟩]
        | .error _ => [] })

def returned (s : SeqSystem ι) (topic : String) : List ℕ :=
  (s.log.filter (·.topic = topic)).map SeqReturn.seq

def returnedTo (s : SeqSystem ι) (i : ι) (topic : String) : List ℕ :=
  (s.log.filter fun r => r.topic = topic ∧ r.caller = .single i).map SeqReturn.seq

end SeqSystem

/-- The node number behind `NewSnowflake`: Go's remainder, moved into [0, 1023], and node 0
if the library refused the number. -/
def newSnowflake (nodeID : Int) : Int :=
  let rem := nodeID.tmod 1024
  let normalized := if rem < 0 then rem + 1024 else rem
  if 0 ≤ normalized ∧ normalized ≤ 1023 then normalized else 0

/-- One `NextID` call: the process, and the millisecond and step its node has reached. -/
structure Draw (ι : Type) where
  process : ι
  millisecond : ℕ
  step : ℕ
  deriving DecidableEq

/-- The generator that `main` builds, the same number in every process. -/
def mainSnowflake : Int := newSnowflake 1

/-- `NextID`, over the library's way to build an id from millisecond, node and step. -/
def nextID {ι : Type} (compose : ℕ → Int → ℕ → Int) (d : Draw ι) : Int :=
  compose d.millisecond mainSnowflake d.step

end NonokaIM
