import NonokaIM.Model.Cluster
import NonokaIM.Model.Delivery
import NonokaIM.Model.Recall

/-! Workers, push pools, the retry queue and recalls, taking turns.

The content leaves the store once, into the task of its handler; copies wait in a pool, in a
delivery and in the retry set. Pushes read no row, so a recall is one step. -/

namespace NonokaIM

inductive PushLogEntry where
  | recalled (topic : String) (topicSeq : ℕ)
  | pushed (msg : MessagePush)
  deriving DecidableEq

/-- `pools` are the push pools of the processes, and `hands` the deliveries and retries under way
with what they still have to do. -/
structure PushSystem (ι : Type) where
  cluster : Cluster ι
  pools : ι → List DeliveryTask := fun _ => []
  hands : List (ι × List DeliveryAction) := []
  retrySet : List RetryItem := []
  log : List PushLogEntry := []

inductive PushEvent (ι : Type) where
  | worker (e : ClusterEvent ι)
  | take (process : ι) (env : DeliveryEnv)
  | takeRetry (process : ι) (item : RetryItem) (env : DeliveryEnv)
  | act (hand : ℕ)
  | recallMessage (args : RecallArgs) (now : Int) (fault : RecallFault)

namespace PushSystem

variable {ι : Type} [DecidableEq ι] (cfg : ι → WorkerConfig) (s : PushSystem ι)

def submitted (c c' : Cluster ι) : List DeliveryTask :=
  c'.world.pushPool.drop c.world.pushPool.length

/-- A step of the workers. The process of a handler that finishes gets its task; one that is
restarted loses its pool and its deliveries. -/
def workerStep (e : ClusterEvent ι) : PushSystem ι :=
  let c' := s.cluster.step cfg e
  match e with
  | .finish h _ _ _ =>
    match s.cluster.attempts[h]? with
    | some a =>
      { s with
        cluster := c'
        pools := Function.update s.pools a.process (s.pools a.process ++ submitted s.cluster c') }
    | none => { s with cluster := c' }
  | .restart i =>
    { s with
      cluster := c'
      pools := Function.update s.pools i []
      hands := s.hands.filter fun hand => hand.1 ≠ i }
  | _ => { s with cluster := c' }

def perform : DeliveryAction → PushSystem ι
  | .push _ _ msg => { s with log := s.log ++ [.pushed msg] }
  | .retry item =>
    { s with retrySet := if item ∈ s.retrySet then s.retrySet else s.retrySet ++ [item] }
  | .receipt _ _ => s

def step : PushEvent ι → PushSystem ι
  | .worker e => s.workerStep cfg e
  | .take i env =>
    match s.pools i with
    | [] => s
    | task :: tasks =>
      { s with
        pools := Function.update s.pools i tasks
        hands := s.hands ++ [(i, deliverMessage env task)] }
  | .takeRetry i item env =>
    if item ∈ s.retrySet ∧ item.retryAt ≤ env.now then
      { s with
        retrySet := s.retrySet.erase item
        hands := s.hands ++ [(i, processRetryTask env item)] }
    else s
  | .act k =>
    match s.hands[k]? with
    | some (i, action :: actions) => { s.perform action with hands := s.hands.set k (i, actions) }
    | _ => s
  | .recallMessage args now fault =>
    let r := recallMessage args now fault s.cluster.world.store
    { s with
      cluster := { s.cluster with world := { s.cluster.world with store := r.2 } }
      log := match r.1 with
        | .ok () => s.log ++ [.recalled args.topic args.topicSeq]
        | .error _ => s.log }

def run (es : List (PushEvent ι)) : PushSystem ι :=
  GuardedRun.run (step cfg) s es

def init (ι : Type) : PushSystem ι := { cluster := Cluster.init ι }

end PushSystem

end NonokaIM
