import GuestHost.Action
import GuestHost.Suspension.Scratch

/-!
# Suspending and resuming a guest

A guest cannot wait.  When an import has no answer yet, the guest unwinds, the host waits for the
answer, and the guest is called again and rewinds to the import, which now answers at once.

A `Protocol` is what the host needs for this: the controls of a guest, as actions on a state that
holds one stash for the awaited answer.  `Protocol.intercept` runs an import, and `Protocol.drive`
runs an export until it finishes.  Between `begin` and `resume` an export that awaits an answer is a
value of its own, `Drive.awaiting`.
-/

namespace GuestHost

/-- The answer of an import: a value, or what will come of one that is awaited. -/
inductive HostValue (V : Type) where
  | ready (value : V)
  | pending (outcome : Except Fault V)

/-- How an answer shows in a log; what is awaited is not shown. -/
def HostValue.describe {V : Type} (render : V → String) : HostValue V → String
  | ready value => "Ready(" ++ render value ++ ")"
  | pending _ => "Pending(..)"

namespace Suspension

/-- The answer on its way to a suspended guest. -/
inductive Stash (V : Type) where
  /-- There is none. -/
  | empty
  /-- It is awaited. -/
  | pending (outcome : Except Fault V)
  /-- It has arrived. -/
  | resolved (value : V)

namespace Stash

variable {V : Type}

/-- Whether no answer is on its way. -/
def isEmpty : Stash V → Bool
  | empty => true
  | _ => false

/-- The name of a stash in a log. -/
def name : Stash V → String
  | empty => "empty"
  | pending _ => "pending"
  | resolved _ => "resolved"

end Stash

/-- How the bookkeeping of a guest shows in a log. -/
def describe {V : Type} (scratch : Scratch) (stash : Stash V) : String :=
  "Asyncify \x7b config: AsyncifyConfig \x7b data_ptr: " ++ toString scratch.dataPtr ++
    ", unwind_start: " ++ toString scratch.start ++ ", unwind_end: " ++ toString scratch.stop ++
    " \x7d, stash: \"" ++ stash.name ++ "\" \x7d"

/-- The controls of a guest and its stash, as parts of a state. -/
structure Protocol (σ V : Type) where
  /-- What the guest is doing. -/
  state : Action σ State
  /-- Tells the guest to save its frames at an address. -/
  startUnwind : UInt32 → Action σ Unit
  /-- Tells the guest that its frames are saved. -/
  stopUnwind : Action σ Unit
  /-- Tells the guest to restore the frames at an address. -/
  startRewind : UInt32 → Action σ Unit
  /-- Tells the guest that its frames are restored. -/
  stopRewind : Action σ Unit
  /-- Where the frames are saved. -/
  dataPtr : UInt32
  /-- The stash in a state. -/
  stash : σ → Stash V
  /-- The state with another stash. -/
  setStash : Stash V → σ → σ

/-- Where an export stands. -/
inductive Drive (R V : Type) where
  /-- It has returned. -/
  | finished (result : R)
  /-- It is unwound and awaits an answer. -/
  | awaiting (outcome : Except Fault V)

namespace Protocol

variable {σ V R : Type} (p : Protocol σ V)

/-- Fails unless the guest is in the given state. -/
def expect (expected : State) : Action σ Unit := do
  let actual ← p.state
  if actual ≠ expected then throw (.suspensionState expected actual)

/-- Puts an answer that is awaited into the empty stash. -/
def stashPending (outcome : Except Fault V) : Action σ Unit := do
  if (p.stash (← get)).isEmpty then modify (p.setStash (.pending outcome))
  else throw (.suspension .alreadyInFlight)

/-- Takes the awaited answer out of the stash. -/
def takePending : Action σ (Except Fault V) := do
  match p.stash (← get) with
  | .pending outcome =>
    modify (p.setStash .empty)
    pure outcome
  | _ => throw (.suspension .nothingPending)

/-- Takes the answer that has arrived out of the stash. -/
def takeResolved : Action σ V := do
  match p.stash (← get) with
  | .resolved value =>
    modify (p.setStash .empty)
    pure value
  | _ => throw (.suspension .nothingResolved)

/-- Runs an import.  A guest that rewinds gets the answer that has arrived; otherwise the import is
called.  There is no answer for a guest that has begun to unwind. -/
def intercept (call : Action σ (HostValue V)) : Action σ (Option V) := do
  if (← p.state) = .rewinding then
    p.stopRewind
    return some (← p.takeResolved)
  p.expect .normal
  match ← call with
  | .ready value => return some value
  | .pending outcome =>
    p.stashPending outcome
    p.startUnwind p.dataPtr
    return none

/-- Finds out where an export stands that has come back. -/
def settle (result : R) : Action σ (Drive R V) := do
  if (← p.state) = .unwinding then
    p.stopUnwind
    return .awaiting (← p.takePending)
  p.expect .normal
  return .finished result

/-- Calls an export. -/
def begin (call : Action σ R) : Action σ (Drive R V) := do
  p.expect .normal
  p.settle (← call)

/-- Calls an export again with the answer that it awaits. -/
def resume (call : Action σ R) (outcome : Except Fault V) : Action σ (Drive R V) := do
  let value ← liftM outcome
  modify (p.setStash (.resolved value))
  p.expect .normal
  p.startRewind p.dataPtr
  p.settle (← call)

/-- Calls an export again for as long as it awaits an answer, at most `rounds` times. -/
def follow (call : Action σ R) : (rounds : Nat) → Drive R V → Action σ R
  | _, .finished result => pure result
  | 0, .awaiting _ => throw (.trap .outOfFuel)
  | rounds + 1, .awaiting outcome => do follow call rounds (← p.resume call outcome)

/-- Runs an export until it finishes. -/
def drive (rounds : Nat) (call : Action σ R) : Action σ R := do
  p.follow call rounds (← p.begin call)

end Protocol

end Suspension

end GuestHost
