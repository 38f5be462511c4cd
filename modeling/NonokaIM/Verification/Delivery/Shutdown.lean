import NonokaIM.Model.PushPool

/-! Shutting down with tasks in the push pool. -/

namespace NonokaIM

open WorkerPool

/-- Whatever the schedule, the tasks that were accepted when `Stop` is called have been passed to
`deliverMessage` when it returns. -/
def ShutdownDrains {pushWorkers : ℕ} (s : PushPool pushWorkers) : Prop :=
  ∀ es, Pool.Returned (s.run es) → s.accepted <+: (s.run es).delivered

/-- Shutting down drains the pool, whatever the schedule, exactly when no task waits in it. -/
theorem shutdown_drains_iff {pushWorkers : ℕ} (s : PushPool pushWorkers) :
    ShutdownDrains s ↔ s.queue = [] :=
  drains_iff pushPoolCapacity s

def oneTaskPool : PushPool 1 :=
  PushPool.run {} [.submit ⟨{ senderID := 1, topic := "p2p_1_2" }, 7, 1, [2, 1], false⟩]

/-- The loop chooses the stop channel, and the task is never delivered. -/
theorem stop_chosen_over_task : ¬ ShutdownDrains oneTaskPool := by
  intro h
  have hreturned : Pool.Returned (oneTaskPool.run [.stop, .close, .leaveStopped 0]) :=
    ⟨rfl, rfl, by decide⟩
  have hprefix := h _ hreturned
  revert hprefix
  decide

end NonokaIM
