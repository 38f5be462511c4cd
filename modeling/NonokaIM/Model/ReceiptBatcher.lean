import NonokaIM.Library.KeyedBuffer
import NonokaIM.Model.Delivery

/-! The batcher for send receipts.

A flush takes the pending map under the lock and calls the pusher after releasing it, so that any
number of flushes may be under way. The fallback for failed receipts is left out. -/

namespace NonokaIM

open KeyedBuffer

/-- A receipt that `Add` has stored, and how many were stored before it. The number is not in the
source. -/
structure StoredReceipt where
  receipt : SendReceipt
  number : ℕ
  deriving DecidableEq

abbrev ReceiptItem := Int × StoredReceipt

inductive FlushPhase where
  | waiting
  | taken (items : List ReceiptItem)
  deriving DecidableEq

inductive LoopPhase where
  | off
  | selecting
  | flushing (flush : FlushPhase)
  deriving DecidableEq

inductive StopPhase where
  | idle
  | waiting
  | flushing (flush : FlushPhase)
  | returned
  deriving DecidableEq

/-- `adding` are the calls of `Add` that flush, `added` all stored receipts in order, `calls` the
items of the calls of `BatchPushReceiptsToUsers`. -/
structure ReceiptBatcher where
  batchSize : Int
  pending : Buffer Int StoredReceipt := ∅
  adding : List FlushPhase := []
  loop : LoopPhase := .off
  stop : StopPhase := .idle
  added : List ReceiptItem := []
  calls : List (List ReceiptItem) := []

inductive Flusher where
  | add (k : ℕ)
  | loop
  | stop
  deriving DecidableEq

/-- `leave` is the end of the loop, `drain` the moment in which `Stop` has waited for it. The order
of a `take` is that of the users in the map. -/
inductive BatcherEvent where
  | start
  | add (userID : Int) (receipt : Option SendReceipt)
  | tick
  | leave
  | stop
  | drain
  | take (flusher : Flusher) (order : List Int)
  | push (flusher : Flusher)

namespace ReceiptBatcher

variable (s : ReceiptBatcher)

def flushOf : Flusher → Option FlushPhase
  | .add k => s.adding[k]?
  | .loop =>
    match s.loop with
    | .flushing flush => some flush
    | _ => none
  | .stop =>
    match s.stop with
    | .flushing flush => some flush
    | _ => none

def setFlush (flush : FlushPhase) : Flusher → ReceiptBatcher
  | .add k => { s with adding := s.adding.set k flush }
  | .loop => { s with loop := .flushing flush }
  | .stop => { s with stop := .flushing flush }

def endFlush : Flusher → ReceiptBatcher
  | .add k => { s with adding := s.adding.eraseIdx k }
  | .loop => { s with loop := .selecting }
  | .stop => { s with stop := .returned }

def add (userID : Int) : Option SendReceipt → ReceiptBatcher
  | none => s
  | some receipt =>
    let stored : StoredReceipt := ⟨receipt, s.added.length⟩
    let pending := KeyedBuffer.add s.pending userID stored
    { s with
      pending
      added := s.added ++ [(userID, stored)]
      adding := if s.batchSize ≤ size pending then s.adding ++ [.waiting] else s.adding }

def take (flusher : Flusher) (order : List Int) : ReceiptBatcher :=
  match s.flushOf flusher with
  | some .waiting =>
    if s.pending.keys = [] then s.endFlush flusher
    else if order.Perm s.pending.keys then
      { s.setFlush (.taken (listed order s.pending)) flusher with pending := ∅ }
    else s
  | _ => s

def push (flusher : Flusher) : ReceiptBatcher :=
  match s.flushOf flusher with
  | some (.taken items) =>
    let s' := s.endFlush flusher
    if items = [] then s' else { s' with calls := s.calls ++ [items] }
  | _ => s

def step : BatcherEvent → ReceiptBatcher
  | .start => if s.loop = .off then { s with loop := .selecting } else s
  | .add userID receipt => s.add userID receipt
  | .tick => if s.loop = .selecting then { s with loop := .flushing .waiting } else s
  | .leave => if s.loop = .selecting then { s with loop := .off } else s
  | .stop => if s.stop = .idle then { s with stop := .waiting } else s
  | .drain =>
    if s.stop = .waiting ∧ s.loop = .off then { s with stop := .flushing .waiting } else s
  | .take flusher order => s.take flusher order
  | .push flusher => s.push flusher

def run (es : List BatcherEvent) : ReceiptBatcher := GuardedRun.run step s es

end ReceiptBatcher

end NonokaIM
