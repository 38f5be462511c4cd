import NonokaIM.Library.WorkerPool
import NonokaIM.Model.MsgWorker

/-! The push pool of a worker process: `HandleMessage` submits, `pushWorkerLoop` takes, `Stop`
waits. -/

namespace NonokaIM

open WorkerPool

/-- The pool and its `pushWorkers` loops. A task that a loop has taken is passed to
`deliverMessage`. -/
abbrev PushPool (pushWorkers : ℕ) := Pool DeliveryTask pushWorkers

def pushPoolCapacity : ℕ := 1024

namespace PushPool

variable {pushWorkers : ℕ}

def run (s : PushPool pushWorkers) (es : List (Event DeliveryTask pushWorkers)) :
    PushPool pushWorkers :=
  WorkerPool.run pushPoolCapacity s es

def delivered (s : PushPool pushWorkers) : List DeliveryTask := s.taken

def accepted (s : PushPool pushWorkers) : List DeliveryTask := Pool.accepted s

end PushPool

end NonokaIM
