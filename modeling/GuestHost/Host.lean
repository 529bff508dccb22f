import GuestHost.ImportSet
import GuestHost.Suspension.Control
import GuestHost.Wasi.Function
import GuestHost.Wasm.Machine

/-!
# The host of a guest

A `Host` is what a host keeps about one guest: the state behind its calls, the controls of an
instrumented guest, and the answer that is on its way to it.  `Host.intercepted` runs the host's
part of an import under the rules of suspension, and `WasiFunction.link` and `HostImport.link` make
functions of it that a guest can call.

All of them work in any state that the store is a part of.  How the host answers there is its
`Host.Manner`; one that answers `plain` does nothing but answer.
-/

namespace GuestHost

open Suspension (Controls Scratch Stash)

/-- What a host keeps about a guest. -/
structure Host where
  wasi : Wasi
  scratch : Scratch := {}
  /-- The controls of an instrumented guest, once it has been set up. -/
  controls : Option Controls := none
  /-- The answer on its way to the guest. -/
  stash : Stash (List Wasm.Value) := .empty
  /-- Whether the guest exports its memory under the usual name. -/
  sharesMemory : Bool := false

namespace Host

/-- The state of a guest and its host. -/
abbrev Store := Wasm.Store Host

/-- A function of the guest, called by its number. -/
abbrev Callback := Wasm.Callback Store

/-- Puts an answer into the stash, or takes it out. -/
def setStash (stash : Stash (List Wasm.Value)) (s : Store) : Store :=
  { s with host := { s.host with stash } }

/-- Changes the state behind the calls of the guest. -/
def setWasi (wasi : Wasi) (s : Store) : Store := { s with host := { s.host with wasi } }

section Intercepted

variable {τ : Type} (store : Part τ Store) (callback : Wasm.Callback τ)

/-- Asks an instrumented guest what it is doing. -/
def askState (controls : Controls) : Action τ Suspension.State := do
  match ← callback controls.getState [] with
  | [.i32 code] => liftM (Suspension.State.ofCode code.toInt32)
  | _ => Wasm.stuck

/-- The controls of a guest as the rules of suspension use them. -/
def protocol (controls : Controls) (scratch : Scratch) :
    Suspension.Protocol τ (List Wasm.Value) where
  state := askState callback controls
  startUnwind ptr := discard (callback controls.startUnwind [.i32 ptr])
  stopUnwind := discard (callback controls.stopUnwind [])
  startRewind ptr := discard (callback controls.startRewind [.i32 ptr])
  stopRewind := discard (callback controls.stopRewind [])
  dataPtr := scratch.dataPtr
  stash t := (store.get t).host.stash
  setStash stash t := store.set (setStash stash (store.get t)) t

/-- Runs the host's part of an import.  A guest that is not instrumented cannot await an answer, and
there is no answer for a guest that has begun to unwind. -/
def intercepted (call : Action τ (HostValue (List Wasm.Value))) :
    Action τ (Option (List Wasm.Value)) := do
  let host := (store.get (← get)).host
  match host.controls with
  | some controls => (protocol store callback controls host.scratch).intercept call
  | none =>
    match ← call with
    | .ready values => pure (some values)
    | .pending _ => throw (.suspension .notInstrumented)

end Intercepted

/-- Answers a system call on the memory of the guest. -/
def answerCall (call : Syscall) : Action Store (HostValue (List Wasm.Value)) :=
  .of fun s =>
    match s with
    | ⟨some memory, globals, fuel, host⟩ =>
      let result := call.run host.wasi memory
      (.ok (.ready [.i32 (UInt32.ofNat result.errno.code)]),
        ⟨some result.memory, globals, fuel, { host with wasi := result.wasi }⟩)
    | s => (.error .missingMemory, s)

/-- The word that an import gives the guest: its first result, or 0 while the guest unwinds. -/
def firstWord (values : Option (List Wasm.Value)) : UInt32 :=
  ((values.bind List.head?).bind Wasm.Value.i32?).getD 0

/-- Ends the guest if the configuration has it so.  A guest may ask for this at any time. -/
def answerExit (code : Int32) : Action Store (List Wasm.Value) := do
  let s ← get
  let (action, wasi) := s.host.wasi.exit code
  set (setWasi wasi s)
  match action with
  | .terminate code => throw (.exit code)
  | .continue => pure []

/-- How a guest runs with its host, in a state that their store is a part of. -/
structure Manner (τ : Type) extends Wasm.Manner τ Host where
  /-- How a system call is answered. -/
  call : Syscall → Action τ (HostValue (List Wasm.Value))
  /-- How a request to be ended is answered. -/
  exit : Int32 → Action τ (List Wasm.Value)
  /-- What is done when a function is called that the host provides. -/
  provided : HostImport → List Wasm.Value → Action τ (HostValue (List Wasm.Value))

/-- How a guest runs with its host on their store alone. -/
@[reducible]
def Manner.plain : Manner Store where
  toManner := .plain
  call := answerCall
  exit := answerExit
  provided i args := pure (i.answer args)

end Host

section Functions

variable {τ : Type} (k : Host.Manner τ)

/-- The function by which a guest asks to be ended. -/
def exitFunction : Wasm.HostFunction τ where
  type := ⟨[.i32], []⟩
  run _ args :=
    match args with
    | [.i32 code] => k.exit code.toInt32
    | _ => Wasm.stuck

/-- A function of WASI as the guest calls it.  It needs the memory of the guest. -/
def WasiFunction.link (f : WasiFunction) : Wasm.HostFunction τ where
  type := ⟨f.params, [.i32]⟩
  run callback args := do
    match f.call args with
    | none => Wasm.stuck
    | some call =>
      if !(k.store.get (← get)).host.sharesMemory then throw .missingMemory
      pure [.i32 (Host.firstWord (← Host.intercepted k.store callback (k.call call)))]

/-- The results of a function for a guest that unwinds.  There is no reference to give it. -/
def unwindingResults (types : List Wasm.ValueType) : Except Fault (List Wasm.Value) :=
  if types.any Wasm.ValueType.isReference then .error (.suspension .referenceResult)
  else .ok (types.map Wasm.Value.zero)

/-- A function that a host provides, as the guest calls it. -/
def HostImport.link (i : HostImport) : Wasm.HostFunction τ where
  type := i.type
  run callback args := do
    let values ←
      match ← Host.intercepted k.store callback (k.provided i args) with
      | some values => pure values
      | none => liftM (unwindingResults i.type.results)
    if values.length = i.type.results.length then pure values
    else Wasm.stop (.resultCount i.key values.length i.type.results.length)

/-- A function that nobody provides. -/
def unknownImport (key : ImportKey) (type : Wasm.FunctionType) : Wasm.HostFunction τ where
  type
  run _ _ := Wasm.stop (.unknownImport key)

end Functions

end GuestHost
