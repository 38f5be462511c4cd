import Mathlib.Logic.Function.Basic
import NonokaIM.Library.GuardedRun

/-! Requests of the SDK's realtime client and the responses that are routed to them. -/

namespace NonokaIM.Sdk

open Function

/-- A call draws a seq, registers a channel, waits, and unregisters before it returns. -/
inductive RequestPhase (P : Type) where
  | unused
  | drawn
  | waiting
  | received (packet : P)
  | gaveUp
  | returned (answer : Option P)

/-- A call and its channel, which holds one packet. -/
structure Request (P : Type) where
  seq : UInt64 := 0
  heartbeat : Bool := false
  phase : RequestPhase P := .unused
  buffer : Option P := none
  closed : Bool := false

/-- `pending` has the call whose channel is registered for a seq, and `dispatching` what the read
loop is about to send. -/
structure Requests (P : Type) where
  seqGen : UInt64 := 0
  started : ℕ := 0
  calls : ℕ → Request P := fun _ => {}
  pending : UInt64 → Option ℕ := fun _ => none
  dispatching : Option (ℕ × P) := none

namespace Requests

variable {P : Type} (s : Requests P) (i : ℕ)

def modify (f : Request P → Request P) : Requests P :=
  { s with calls := update s.calls i (f (s.calls i)) }

def nextSeq (heartbeat : Bool) : Requests P :=
  { s with
    seqGen := s.seqGen + 1
    started := s.started + 1
    calls := update s.calls s.started { seq := s.seqGen + 1, heartbeat, phase := .drawn } }

def registerPending : Requests P :=
  { s with pending := update s.pending (s.calls i).seq (some i) }

def unregisterPending (seq : UInt64) : Requests P :=
  match s.pending seq with
  | none => s
  | some j =>
    ({ s with pending := update s.pending seq none } : Requests P).modify j
      ({ · with buffer := none, closed := true })

def leave (answer : Option P) : Requests P :=
  (s.unregisterPending (s.calls i).seq).modify i ({ · with phase := .returned answer })

/-- `dispatchResponse` after its lookup. To send on a closed channel is a panic that is recovered,
and nothing is sent on a full one. -/
def dispatchResponse : Requests P :=
  match s.dispatching with
  | none => s
  | some (i, packet) =>
    ({ s with dispatching := none } : Requests P).modify i fun r =>
      if r.closed || r.buffer.isSome then r else { r with buffer := some packet }

end Requests

/-- `giveUp` is a failed send, a timeout, or the end of the context or of the client. -/
inductive RequestEvent (P : Type) where
  | nextSeq (heartbeat : Bool)
  | register (i : ℕ)
  | lookup (packet : P)
  | dispatch
  | receive (i : ℕ)
  | giveUp (i : ℕ)
  | leave (i : ℕ)

/-- One step of one goroutine. A heartbeat that was answered does not unregister. -/
def Requests.step {P : Type} (seq : P → UInt64) (s : Requests P) : RequestEvent P → Requests P
  | .nextSeq heartbeat => s.nextSeq heartbeat
  | .register i =>
    match (s.calls i).phase with
    | .drawn => (s.registerPending i).modify i ({ · with phase := .waiting })
    | _ => s
  | .lookup packet =>
    if s.dispatching.isSome then s
    else { s with dispatching := (s.pending (seq packet)).map (·, packet) }
  | .dispatch => s.dispatchResponse
  | .receive i =>
    match (s.calls i).phase, (s.calls i).buffer with
    | .waiting, some packet => s.modify i ({ · with phase := .received packet, buffer := none })
    | .waiting, none =>
      if (s.calls i).closed then
        s.modify i fun r => { r with phase := if r.heartbeat then .returned none else .gaveUp }
      else s
    | _, _ => s
  | .giveUp i =>
    match (s.calls i).phase with
    | .waiting => s.modify i ({ · with phase := .gaveUp })
    | _ => s
  | .leave i =>
    match (s.calls i).phase with
    | .received packet => if (s.calls i).heartbeat then s else s.leave i (some packet)
    | .gaveUp => s.leave i none
    | _ => s

end NonokaIM.Sdk
