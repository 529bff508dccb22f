import GuestHost.GuestModule
import GuestHost.Linking

/-!
# Instances

An instance is a module that was set up with a host of its own.  `Instance.create` links it, runs
its start function, and finds its controls if it is instrumented.  `Instance.call` runs an export,
which may await answers if the guest is instrumented; `Instance.start` and `Instance.begin` do so
once, as the convention for commands and the one for reactors have it.

Exports run in any state that the instance is a part of.  What is around it, and what runs the
functions of the guest, is the `Instance.Manner`.
-/

namespace GuestHost

open Suspension (Control Controls)

/-- The name under which a guest exports its memory. -/
def memoryName : String := "memory"

/-- The export by which a command runs. -/
def commandEntry : String := "_start"

/-- The export by which a reactor sets itself up. -/
def reactorEntry : String := "_initialize"

/-- A module that was set up. -/
structure Instance where
  code : Wasm.Module
  environment : Wasm.Environment Host.Store
  store : Host.Store
  /-- Whether the guest was started before. -/
  started : Bool := false

/-- Why an instance could not be made, and the lines that the guest had emitted by then. -/
structure Refusal where
  cause : Fault
  emitted : List Emission := []

/-- How a command ended. -/
inductive Outcome where
  | returned
  /-- It asked to be ended. -/
  | exited (code : Int32)
  deriving DecidableEq, Repr

/-- The exit code of a command. -/
def Outcome.code : Outcome → Int32
  | returned => 0
  | exited code => code

namespace Instance

/-! ## Setting up -/

/-- A failure to set up a module. -/
def refused (detail : String) : Fault := .wasm (.instantiation detail)

/-- The pages that the memory of a module may grow to: as many as it allows and fit the limit in
bytes. -/
def pageLimit (m : Wasm.Module) (maxMemory : Nat) : Nat :=
  let declared := ((m.memories.head?.bind Wasm.Limits.max).getD Wasm.maxPages)
  min declared (maxMemory / Wasm.pageSize)

/-- The memory that a module begins with, its data included. -/
def initialMemory (m : Wasm.Module) (maxMemory : Nat) : Except Fault (Option Memory) :=
  match m.memories with
  | [] => .ok none
  | limits :: _ => do
    if maxMemory < limits.min * Wasm.pageSize then
      throw (refused "memory exceeds the limit")
    let memory ← m.data.foldlM
      (fun memory segment =>
        match memory.write segment.offset.toNat segment.bytes with
        | .ok memory => .ok memory
        | .error _ => .error (refused Trap.outOfBounds.message))
      (Memory.blank (limits.min * Wasm.pageSize))
    return some memory

/-- The functions of a module with those that it imports in front. -/
def linked (m : Wasm.Module) (imported : List (Wasm.HostFunction Host.Store)) (maxMemory : Nat) :
    Wasm.Environment Host.Store where
  functions := (imported.map Wasm.Callee.host ++ m.functions.map Wasm.Callee.guest).toArray
  maxPages := pageLimit m maxMemory

/-- Links a module, before any of its code has run. -/
def link (c : Config) (m : Wasm.Module) (imports : ImportSet) (streams : Table.StandardStreams) :
    Except Fault Instance := do
  let wasi ← Wasi.ofConfig c streams
  let definitions ← Definitions.ofImports imports
  let definitions :=
    if c.trapUnknownImports then m.imports.foldl .withUnknown definitions else definitions
  let imported ← (definitions.resolve m).mapError refused
  let memory ← initialMemory m c.maxMemory.toNat
  return {
    code := m
    environment := linked m imported c.maxMemory.toNat
    store :=
      { memory
        globals := (m.globals.map Wasm.Global.init).toArray
        fuel := c.fuelLimit.map UInt64.toNat
        host := { wasi, scratch := c.scratch, sharesMemory := m.hasMemory memoryName } } }

variable {τ : Type} (i : Instance)

/-- Calls a function of the guest without the host. -/
def invoke : Host.Callback := Wasm.invoke .plain i.environment

/-- Runs the start function, if there is one. -/
def runStart (invoke : Wasm.Callback τ) : Action τ Unit :=
  match i.code.start with
  | none => pure ()
  | some function =>
    .of fun t =>
      match (invoke function []).apply t with
      | (.ok _, t) => (.ok (), t)
      | (.error f, t) => (.error (refused f.message), t)

/-- Writes the bounds of the scratch region into the memory of an instrumented guest. -/
def placeScratch : Action Host.Store Unit :=
  .of fun s =>
    match s.host.sharesMemory, s.memory with
    | true, some memory =>
      let (result, memory) := s.host.scratch.writeBounds memory
      (result, { s with memory := some memory })
    | _, _ => (.error .missingMemory, s)

/-- Finds the controls of an instrumented guest, and gets it ready to be suspended. -/
def attach : Action Host.Store Unit := do
  match ← liftM (Controls.find i.code) with
  | none => pure ()
  | some controls =>
    placeScratch
    modify fun s => { s with host := { s.host with controls := some controls } }

/-- Runs the start function, and gets an instrumented guest ready to be suspended. -/
def setUp (store : Part τ Host.Store) (invoke : Wasm.Callback τ) : Action τ Unit := do
  i.runStart invoke
  i.attach.within store

/-- Sets a module up with a host that has the given imports and streams. -/
def create (c : Config) (m : Wasm.Module) (imports : ImportSet) (streams : Table.StandardStreams) :
    Except Refusal Instance :=
  match link c m imports streams with
  | .error cause => .error { cause }
  | .ok i =>
    match (i.setUp .whole i.invoke).apply i.store with
    | (.ok (), store) => .ok { i with store }
    | (.error cause, store) => .error { cause, emitted := store.host.wasi.emitted }

/-! ## Looking at an instance -/

/-- What stands behind the calls of the guest. -/
def wasi : Wasi := i.store.host.wasi

/-- The instance with another state behind the calls of the guest. -/
def withWasi (wasi : Wasi) : Instance := { i with store := Host.setWasi wasi i.store }

/-- Whether exports may await answers. -/
def isInstrumented : Bool := i.store.host.controls.isSome

/-- Whether the fuel of the guest is limited. -/
def isMetered : Bool := i.store.fuel.isSome

/-- The code with which the guest last asked to be ended. -/
def exitCode : Option Int32 := i.wasi.exitCode

/-- The names of the exported functions. -/
def functionNames : List String := i.code.functionNames

/-- Emits the incomplete lines of all outputs. -/
def flush : Instance := i.withWasi i.wasi.flush

/-- The memory that the guest shares. -/
def memory : Except Fault Memory :=
  match i.store.host.sharesMemory, i.store.memory with
  | true, some memory => .ok memory
  | _, _ => .error .missingMemory

/-- Reads from the memory of the guest. -/
def readMemory (start len : Nat) : Except Fault Bytes := do
  match (← i.memory).read start len with
  | .ok bytes => .ok bytes
  | .error _ => .error (.wasm .readOutOfBounds)

/-- Writes to the memory of the guest. -/
def writeMemory (start : Nat) (bytes : Bytes) : Except Fault Instance := do
  match (← i.memory).write start bytes with
  | .ok memory => .ok { i with store := { i.store with memory := some memory } }
  | .error _ => .error (.wasm .writeOutOfBounds)

/-! ## Running exports -/

/-- Fails unless arguments have the types of a function's parameters. -/
def checkArguments (type : Wasm.FunctionType) (args : List Wasm.Value) : Except Fault Unit :=
  if args.length ≠ type.params.length then
    .error (.trap (.argumentCount type.params.length args.length))
  else
    match Wasm.mismatch? type.params args with
    | none => .ok ()
    | some (type, value) => .error (.trap (.argumentType type value.type))

/-- The most times that an export is called again: more than it can ever be. -/
def roundLimit : Nat := 1 <<< 62

/-- Calls a function once. -/
def callOnce (invoke : Wasm.Callback τ) (function : Nat) (args : List Wasm.Value) :
    Action τ (List Wasm.Value) := do
  match i.code.functionType? function with
  | none => Wasm.stuck
  | some type =>
    liftM (checkArguments type args)
    invoke function args

/-- Notes that the guest is started, which may be done once. -/
def markStarted : Action Instance Unit := do
  if (← get).started then throw .alreadyStarted
  modify fun i => { i with started := true }

/-- How exports run in a state `Θ` that the instance is a part of. -/
structure Manner (Θ τ : Type) where
  self : Part Θ Instance
  /-- The state in which the guest runs. -/
  guest : Part Θ τ
  store : Part τ Host.Store
  /-- Calls a function of the guest. -/
  invoke : Instance → Wasm.Callback τ

/-- The guest and its host as a part of an instance. -/
@[reducible]
def part : Part Instance Host.Store where
  get := store
  set store i := { i with store }

/-- How exports run on the instance alone. -/
@[reducible]
def Manner.plain : Manner Instance Host.Store where
  self := .whole
  guest := part
  store := .whole
  invoke := Instance.invoke

namespace Manner

variable {Θ : Type} (k : Manner Θ τ)

/-- Emits the incomplete lines of all outputs. -/
def flush (t : Θ) : Θ := k.self.set (k.self.get t).flush t

/-- Runs an export until it finishes.  The controls themselves cannot be suspended. -/
def call (name : String) (args : List Wasm.Value) : Action Θ (List Wasm.Value) := do
  let i := k.self.get (← get)
  let some function := i.code.function? name | throw (.missingExport name)
  let once := i.callOnce (k.invoke i) function args
  match i.store.host.controls with
  | some controls =>
    if Control.isName name then once.within k.guest
    else
      let p := Host.protocol k.store (k.invoke i) controls i.store.host.scratch
      (p.drive roundLimit once).within k.guest
  | none => once.within k.guest

/-- Runs the entry of a command and flushes its output, however it ends. -/
def runCommand : Action Θ Outcome :=
  .of fun t =>
    let (result, t) := (k.call commandEntry []).apply t
    let outcome :=
      match result with
      | .ok _ => .ok .returned
      | .error (.exit code) => .ok (.exited code)
      | .error f => .error f
    (outcome, k.flush t)

/-- Runs a command.  A command does not set itself up. -/
def start : Action Θ Outcome := do
  markStarted.within k.self
  let code := (k.self.get (← get)).code
  if (code.function? commandEntry).isNone then throw (.missingExport commandEntry)
  if (code.export? reactorEntry).isSome then throw (.unexpectedExport reactorEntry)
  k.runCommand

/-- Sets up a reactor, if it has a function for it.  A reactor does not run as a command. -/
def begin : Action Θ Unit := do
  markStarted.within k.self
  let code := (k.self.get (← get)).code
  if (code.export? commandEntry).isSome then throw (.unexpectedExport commandEntry)
  if (code.function? reactorEntry).isSome then discard (k.call reactorEntry [])

end Manner

/-- Runs an export until it finishes. -/
abbrev call (name : String) (args : List Wasm.Value) : Action Instance (List Wasm.Value) :=
  Manner.plain.call name args

/-- Runs a command. -/
abbrev start : Action Instance Outcome := Manner.plain.start

/-- Sets up a reactor. -/
abbrev begin : Action Instance Unit := Manner.plain.begin

end Instance

end GuestHost
