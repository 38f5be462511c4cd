import NonokaIM.Library.SortedSet
import NonokaIM.Model.RetryMember

/-! The retry queues of several workers over one sorted set.

The event of a command stands where Redis executes it first, if it does. The client sends a command
without a reply again, so that it may be executed again later. Clocks need not agree. Calls of
`ScheduleRetry` are numbered, and an entry has the numbers of the calls it goes back to. -/

namespace NonokaIM

open SortedSet

def retryWorkerCount : ℕ := 8

def maxRetryBatchSize : ℕ := 100

/-- How often the client sends a command again; `redis.Options` leaves this at its default. -/
def maxResends : ℕ := 3

abbrev RetryEntry := Entry (List Char) ℕ

/-- A task waits for a worker, is with one, has removed its entry, waits for its push, or is about
to put the item back. -/
inductive RetryPhase where
  | waiting
  | running
  | removed (entry : RetryEntry)
  | pushed (entry : RetryEntry)
  | failed (entry : RetryEntry)
  deriving DecidableEq

structure RetryTask (ι : Type) where
  queue : ι
  member : List Char
  phase : RetryPhase := .waiting

/-- A `ZADD` that was executed, and how often it may be sent again. -/
structure SentItem where
  entry : RetryEntry
  resends : ℕ := maxResends

structure RetryPush (ι : Type) where
  queue : ι
  entry : RetryEntry

/-- The set, the tasks of all queues, the `ZADD`s so far, the number of calls of `ScheduleRetry`, and
the pushes so far. -/
structure RetryQueues (ι : Type) where
  set : Entries (List Char) ℕ := .empty
  tasks : List (RetryTask ι) := []
  sent : List SentItem := []
  calls : ℕ := 0
  log : List (RetryPush ι) := []

/-- A command whose reply was lost is executed again by `resendAdd` and, for the removal of a task,
after `removeUnanswered`. -/
inductive RetryEvent (ι : Type) where
  | scheduleRetry (now userID : Int) (msg : MessagePush) (isNil applied : Bool)
  | processRetries (queue : ι) (now : Int) (fetched : Bool) (removes : List Char → Bool)
  | handOver (k : ℕ)
  | skip (k : ℕ)
  | removeUnanswered (k : ℕ)
  | removeRetryItem (k : ℕ) (applied replied : Bool)
  | push (k : ℕ)
  | reply (k : ℕ) (delivered : Bool)
  | requeueIfNeeded (k : ℕ) (now : Int) (isNil applied : Bool)
  | resendAdd (k : ℕ)
  | crash (queue : ι)

namespace RetryQueues

variable {ι : Type} (s : RetryQueues ι)

def zAdd (entry : RetryEntry) : RetryQueues ι := { s with set := s.set.add entry }

def enqueueItem (item : RetryItem) (calls : Finset ℕ) (h : calls.Nonempty) (isNil applied : Bool) :
    RetryQueues ι :=
  let entry : RetryEntry := ⟨item.member isNil, item.retryAt, calls, h⟩
  if applied then { s.zAdd entry with sent := s.sent ++ [{ entry }] } else s

def resendAdd (k : ℕ) : RetryQueues ι :=
  match s.sent[k]? with
  | some z =>
    if 0 < z.resends then
      { s.zAdd z.entry with sent := s.sent.set k { z with resends := z.resends - 1 } }
    else s
  | none => s

section

variable [DecidableEq ι]

/-- Texts in the order of their bytes, which is that of their characters. -/
def textLe (a b : List Char) : Bool := !b.lex a fun c d => c.toNat < d.toNat

/-- One batch at a time: the members that are due become tasks, and those without a bar are
removed. -/
def processRetries (s : RetryQueues ι) (queue : ι) (now : Int) (fetched : Bool)
    (removes : List Char → Bool) : RetryQueues ι :=
  if s.tasks.any fun t => t.queue = queue then s
  else
    let items := if fetched then s.set.range textLe now maxRetryBatchSize else []
    { s with
      set := (items.filter fun m => (memberData m).isNone && removes m).foldl Entries.remove s.set
      tasks := s.tasks ++
        (items.filter fun m => (memberData m).isSome).map fun m => ⟨queue, m, .waiting⟩ }

/-- Tasks are handed over in their order. -/
def isNext (s : RetryQueues ι) (k : ℕ) (t : RetryTask ι) : Bool :=
  t.phase = .waiting ∧ ∀ t' ∈ s.tasks.take k, t'.queue = t.queue → t'.phase ≠ .waiting

/-- The tasks that the workers of a queue are busy with. -/
def busy (s : RetryQueues ι) (queue : ι) : ℕ :=
  (s.tasks.filter fun t => t.queue = queue ∧ t.phase ≠ .waiting).length

end

def setPhase (k : ℕ) (t : RetryTask ι) (phase : RetryPhase) : RetryQueues ι :=
  { s with tasks := s.tasks.set k { t with phase } }

def finish (k : ℕ) : RetryQueues ι := { s with tasks := s.tasks.eraseIdx k }

/-- The entry that a task has to push: its data can be read, the reply says that the member was
removed, and the limit is not reached. -/
def claimed (t : RetryTask ι) (applied replied : Bool) : Option RetryEntry :=
  match memberItem t.member, s.set.find t.member with
  | some item, some entry =>
    if applied && replied && item.retryCount < maxRetryAttempts then some entry else none
  | _, _ => none

theorem find_of_claimed {s : RetryQueues ι} {t : RetryTask ι} {applied replied : Bool}
    {entry : RetryEntry} (h : s.claimed t applied replied = some entry) :
    applied = true ∧ s.set.find t.member = some entry := by
  unfold claimed at h
  split at h
  · rename_i hfind
    split at h
    · rename_i hguard
      cases h
      simp only [Bool.and_eq_true] at hguard
      exact ⟨hguard.1.1, hfind⟩
    · cases h
  · cases h

def removeRetryItem (k : ℕ) (t : RetryTask ι) (applied replied : Bool) : RetryQueues ι :=
  let s' := if applied then { s with set := s.set.remove t.member } else s
  match s.claimed t applied replied with
  | some entry => s'.setPhase k t (.removed entry)
  | none => s'.finish k

/-- Put the item back with a higher count, below the limit. -/
def requeueIfNeeded (k : ℕ) (entry : RetryEntry) (now : Int) (isNil applied : Bool) :
    RetryQueues ι :=
  match memberItem entry.member with
  | some item =>
    if item.retryCount + 1 < maxRetryAttempts then
      (s.finish k).enqueueItem (item.requeue now) entry.labels entry.labelled isNil applied
    else s.finish k
  | none => s.finish k

variable [DecidableEq ι]

def taskStep (s : RetryQueues ι) (k : ℕ) (t : RetryTask ι) : RetryEvent ι → RetryQueues ι
  | .handOver _ =>
    if s.isNext k t ∧ s.busy t.queue < retryWorkerCount then s.setPhase k t .running else s
  | .skip _ => if s.isNext k t then s.finish k else s
  | .removeUnanswered _ =>
    if t.phase = .running then { s with set := s.set.remove t.member } else s
  | .removeRetryItem _ applied replied =>
    if t.phase = .running then s.removeRetryItem k t applied replied else s
  | .push _ =>
    match t.phase with
    | .removed entry =>
      { s.setPhase k t (.pushed entry) with log := s.log ++ [⟨t.queue, entry⟩] }
    | _ => s
  | .reply _ delivered =>
    match t.phase with
    | .pushed entry => if delivered then s.finish k else s.setPhase k t (.failed entry)
    | _ => s
  | .requeueIfNeeded _ now isNil applied =>
    match t.phase with
    | .failed entry => s.requeueIfNeeded k entry now isNil applied
    | _ => s
  | _ => s

def onTask (s : RetryQueues ι) (k : ℕ) (e : RetryEvent ι) : RetryQueues ι :=
  match s.tasks[k]? with
  | some t => s.taskStep k t e
  | none => s

def step (s : RetryQueues ι) (e : RetryEvent ι) : RetryQueues ι :=
  match e with
  | .scheduleRetry now userID msg isNil applied =>
    { s.enqueueItem (NonokaIM.scheduleRetry now userID msg) {s.calls} (Finset.singleton_nonempty _)
        isNil applied with
      calls := s.calls + 1 }
  | .processRetries queue now fetched removes => s.processRetries queue now fetched removes
  | .resendAdd k => s.resendAdd k
  | .crash queue => { s with tasks := s.tasks.filter fun t => t.queue ≠ queue }
  | .handOver k | .skip k | .removeUnanswered k | .removeRetryItem k _ _ | .push k | .reply k _
  | .requeueIfNeeded k _ _ _ => s.onTask k e

def run (s : RetryQueues ι) (es : List (RetryEvent ι)) : RetryQueues ι := GuardedRun.run step s es

end RetryQueues

end NonokaIM
