import NonokaIM.Model.MsgWorker

/-! Several workers at the same time.

Every insert command is a step. Group messages wait in their worker's batcher for a flush; a handler
may stop waiting before that, and a worker may be restarted at any time. -/

namespace NonokaIM

open DocumentStore Function

/-- One handler call for the message of a Kafka record, once it is numbered. -/
structure Attempt (ι : Type) where
  record : ℕ
  process : ι
  msg : UpstreamMessage
  msgID : Int
  topicSeq : ℕ
  deriving DecidableEq

def Attempt.item {ι : Type} (a : Attempt ι) : GroupBatchItem := ⟨a.msg, a.msgID, a.topicSeq⟩

inductive Stage where
  | numbered
  | queued
  | saved (recipientIDs : List Int) (isDuplicate : Bool)
  | returned
  deriving DecidableEq

/-- `pending` is the batcher of each worker, `fallback` the items that a flush has to save one by
one, and `acks` the attempts that returned no error, with whether their worker was stopping. -/
structure Cluster (ι : Type) where
  seqs : SeqSystem ι
  world : World := {}
  attempts : List (Attempt ι) := []
  stage : ℕ → Stage := fun _ => .returned
  pending : ι → List ℕ := fun _ => []
  fallback : List ℕ := []
  acks : List (ℕ × Bool) := []

inductive ClusterEvent (ι : Type) where
  | accept (process : ι) (record : ℕ) (msg : UpstreamMessage) (msgID : Int) (fault : CallFault)
  | save (attempt : ℕ) (now : Int) (fault : SaveFault) (tx : TxFault)
  | flush (process : ι) (now : Int) (fault : SaveFault)
  | saveOne (attempt : ℕ) (now : Int) (fault : SaveFault)
  | timeout (attempt : ℕ)
  | finish (attempt : ℕ) (now : Int) (fault : CompleteFault) (stop : Option PoolSelect)
  | restart (process : ι)

namespace Cluster

variable {ι : Type} [DecidableEq ι] (cfg : ι → WorkerConfig) (c : Cluster ι)

/-- A worker numbers a message. A handler without a number returns its error at once. -/
def accept (i : ι) (record : ℕ) (msg : UpstreamMessage) (msgID : Int) (fault : CallFault) :
    Cluster ι :=
  match c.seqs.nextSeq i msg.topic fault with
  | (.error _, seqs) => { c with seqs := seqs }
  | (.ok topicSeq, seqs) =>
    { c with
      seqs := seqs
      attempts := c.attempts ++ [⟨record, i, msg, msgID, topicSeq⟩]
      stage := update c.stage c.attempts.length .numbered }

def Stage.ofResult : Except String (List Int × Bool) → Stage
  | .ok (recipientIDs, isDuplicate) => .saved recipientIDs isDuplicate
  | .error _ => .returned

def save (h : ℕ) (a : Attempt ι) (now : Int) (fault : SaveFault) (tx : TxFault) : Cluster ι :=
  if batched (cfg a.process) a.msg then
    { c with
      stage := update c.stage h .queued
      pending := update c.pending a.process (c.pending a.process ++ [h]) }
  else
    let r := NonokaIM.save (cfg a.process) now a.msg a.msgID a.topicSeq fault tx c.world.store
    { c with
      world := { c.world with store := r.2 }
      stage := update c.stage h (Stage.ofResult r.1) }

/-- A handler that still waits for its batch receives the result. -/
def resolve (stage : ℕ → Stage) (h : ℕ) (r : Except String Bool) : ℕ → Stage :=
  if stage h = .queued then
    update stage h (Stage.ofResult (r.map fun isDuplicate => ([], isDuplicate)))
  else stage

def items (hs : List ℕ) : List GroupBatchItem :=
  hs.filterMap fun h => (c.attempts[h]?).map Attempt.item

def flush (i : ι) (now : Int) (fault : SaveFault) : Cluster ι :=
  let hs := c.pending i
  let items := c.items hs
  let r := saveGroupMessagesBatch now items fault c.world.store
  let c' := { c with
    world := { c.world with store := r.2 }
    pending := update c.pending i [] }
  match batchVerdict items.length r.1 with
  | some isDuplicate =>
    { c' with stage := hs.foldl (fun stage h => resolve stage h (.ok isDuplicate)) c.stage }
  | none => { c' with fallback := c.fallback ++ hs }

def saveOne (h : ℕ) (a : Attempt ι) (now : Int) (fault : SaveFault) : Cluster ι :=
  let r := saveGroupMessage now a.msg a.msgID a.topicSeq fault c.world.store
  { c with
    world := { c.world with store := r.2 }
    fallback := c.fallback.erase h
    stage := resolve c.stage h r.1 }

def finish (h : ℕ) (a : Attempt ι) (recipientIDs : List Int) (isDuplicate : Bool) (now : Int)
    (fault : CompleteFault) (stop : Option PoolSelect) : Cluster ι :=
  let r := complete (cfg a.process) now a.msg a.msgID a.topicSeq recipientIDs isDuplicate fault
    (stop.getD .queued) c.world
  { c with
    world := r.2
    stage := update c.stage h .returned
    acks := match r.1 with
      | .ok () => c.acks ++ [(h, stop.isSome)]
      | .error _ => c.acks }

def runsOn (i : ι) (h : ℕ) : Bool := (c.attempts[h]?).any (·.process = i)

def restart (i : ι) : Cluster ι :=
  { c with
    seqs := { c.seqs with gens := update c.seqs.gens i {} }
    stage := fun h => if c.runsOn i h then .returned else c.stage h
    pending := update c.pending i []
    fallback := c.fallback.filter fun h => !c.runsOn i h }

def step : ClusterEvent ι → Cluster ι
  | .accept i record msg msgID fault => c.accept i record msg msgID fault
  | .save h now fault tx =>
    match c.attempts[h]?, c.stage h with
    | some a, .numbered => c.save cfg h a now fault tx
    | _, _ => c
  | .flush i now fault => c.flush i now fault
  | .saveOne h now fault =>
    match c.attempts[h]? with
    | some a => if h ∈ c.fallback then c.saveOne h a now fault else c
    | none => c
  | .timeout h =>
    if c.stage h = .queued then { c with stage := update c.stage h .returned } else c
  | .finish h now fault stop =>
    match c.attempts[h]?, c.stage h with
    | some a, .saved recipientIDs isDuplicate =>
      c.finish cfg h a recipientIDs isDuplicate now fault stop
    | _, _ => c
  | .restart i => c.restart i

def run (es : List (ClusterEvent ι)) : Cluster ι :=
  GuardedRun.run (step cfg) c es

def init (ι : Type) : Cluster ι := { seqs := SeqSystem.init ι fun _ => 0 }

/-- Redis has lost the counter of a topic, and all workers start anew. -/
def loseCounter (topic : String) : Cluster ι where
  seqs := SeqSystem.init ι (update c.seqs.counter topic 0)
  world := c.world

end Cluster

end NonokaIM
