import GuestHost.Action
import GuestHost.Memory
import GuestHost.Wasm.Module

/-!
# Running instructions

A `Machine` is a function that runs, is called, or returns, together with the functions that wait
for it.  `step` carries out one instruction, and `exec` goes on until the last function has
returned.  What outlives a call is in the `Store`, which has room for the state `σ` of a host.  A
function of the host may call back into the guest.

A guest runs in any state `τ` that its store is a part of.  What is around the store, and what is
done with it before each instruction, is its `Manner`; a guest that runs `plain` has nothing around
its store.

A guest whose fuel is limited is stopped where it enters a function or goes round a loop with no
fuel left.  The machines of a valid module never get stuck; one that does is stopped as well.
-/

namespace GuestHost

namespace Wasm

/-- What the functions of a guest share, and the state of its host. -/
structure Store (σ : Type) where
  memory : Option Memory := none
  globals : Array Value := #[]
  /-- What is left of the fuel of a guest whose fuel is limited. -/
  fuel : Option Nat := none
  host : σ

/-- A function of a guest, called by its number with arguments in order. -/
abbrev Callback (τ : Type) := Nat → List Value → Action τ (List Value)

/-- A function that the host provides to a guest that runs in states of type `τ`. -/
structure HostFunction (τ : Type) where
  type : FunctionType
  /-- What a call does.  The function may call back into the guest. -/
  run : Callback τ → List Value → Action τ (List Value)

/-- What a function's number may stand for. -/
inductive Callee (τ : Type) where
  | host (function : HostFunction τ)
  | guest (function : Function)

/-- The type of a function. -/
def Callee.type {τ : Type} : Callee τ → FunctionType
  | host f => f.type
  | guest f => f.type

/-- What stays the same while a guest runs. -/
structure Environment (τ : Type) where
  /-- The functions in the order of their numbers. -/
  functions : Array (Callee τ)
  /-- How many pages its memory may grow to. -/
  maxPages : Nat

/-- The type of the function with the given number. -/
def Environment.type? {τ : Type} (env : Environment τ) (function : Nat) : Option FunctionType :=
  env.functions[function]?.map Callee.type

/-- A block that is being run. -/
structure Label where
  /-- How many values a branch to the block carries. -/
  arity : Nat
  /-- What a branch to the block goes on with. -/
  target : List Instr
  /-- What follows the block. -/
  rest : List Instr
  /-- The operands below those of the block. -/
  below : List Value

/-- A function that is being run.  The topmost operand and the innermost block come first. -/
structure Activation where
  arity : Nat
  locals : Array Value
  operands : List Value := []
  code : List Instr
  labels : List Label := []

/-- Where a guest stands. -/
inductive Machine where
  | running (current : Activation) (callers : List Activation)
  | calling (function : Nat) (args : List Value) (callers : List Activation)
  | returning (results : List Value) (callers : List Activation)

variable {σ τ : Type}

/-- Stops a guest. -/
def stop {α : Type} (cause : Trap) : Action τ α := throw (.trap cause)

/-- Stops a guest that has got stuck. -/
def stuck {α : Type} : Action τ α := stop .unreachable

/-! ## Operations -/

/-- The number of a truth value. -/
def word (b : Bool) : UInt32 := if b then 1 else 0

/-- Carries out an operation on two integers. -/
def BinaryOp.eval (op : BinaryOp) (a b : UInt32) : Except Trap UInt32 :=
  match op with
  | add => .ok (a + b)
  | sub => .ok (a - b)
  | mul => .ok (a * b)
  | divS =>
    if b = 0 then .error .divideByZero
    else if a = 0x80000000 ∧ b = 0xffffffff then .error .integerOverflow
    else .ok (a.toInt32 / b.toInt32).toUInt32
  | remU => if b = 0 then .error .divideByZero else .ok (a % b)
  | eq => .ok (word (a = b))
  | ne => .ok (word (a ≠ b))
  | ltU => .ok (word (a < b))
  | leS => .ok (word (a.toInt32 ≤ b.toInt32))

/-- Loads an integer from memory. -/
def loadWord (width : AccessWidth) (address : Nat) : Action (Store σ) UInt32 := do
  let some m := (← get).memory | stuck
  match m.read address width.bytes with
  | .ok bs => pure bs.toU32
  | .error _ => stop .outOfBounds

/-- Stores the low bytes of an integer in memory. -/
def storeWord (width : AccessWidth) (address : Nat) (value : UInt32) : Action (Store σ) Unit :=
  .of fun s =>
    match s with
    | ⟨some m, globals, fuel, host⟩ =>
      let bs := Bytes.ofNat width.bytes value.toNat
      if m.InBounds address bs.length then
        (.ok (), ⟨some (m.overlay address bs), globals, fuel, host⟩)
      else (.error (.trap .outOfBounds), ⟨some m, globals, fuel, host⟩)
    | s => (.error (.trap .unreachable), s)

/-- The number of pages of the memory. -/
def pages (m : Memory) : Nat := m.size / pageSize

/-- Adds pages to the memory and gives the number of pages before, or gives -1 and adds none. -/
def growMemory (limit : Nat) (delta : Nat) : Action (Store σ) UInt32 := do
  let s ← get
  let some m := s.memory | stuck
  if pages m + delta ≤ limit then
    set { s with memory := some (m.extend (delta * pageSize)) }
    pure (UInt32.ofNat (pages m))
  else pure 0xffffffff

/-! ## Fuel -/

/-- Whether an instruction takes no fuel. -/
def Instr.isFree : Instr → Bool
  | block .. | loop .. | unreachable | .return | drop => true
  | _ => false

/-- Uses up a unit of fuel, if there is one. -/
def useFuel : Action (Store σ) Unit := modify fun s => { s with fuel := s.fuel.map Nat.pred }

/-- Stops a guest that has no fuel left. -/
def checkFuel : Action (Store σ) Unit := do
  if (← get).fuel = some 0 then stop .outOfFuel

/-! ## Control -/

/-- Begins a block. -/
def Activation.enter (a : Activation) (arity : Nat) (target body : List Instr) : Activation :=
  { a with
    operands := []
    code := body
    labels := ⟨arity, target, a.code, a.operands⟩ :: a.labels }

/-- Returns from a function. -/
def Activation.leave (a : Activation) (callers : List Activation) : Machine :=
  .returning (a.operands.take a.arity).reverse callers

/-- Branches out of blocks, or out of the function. -/
def Activation.branch (a : Activation) (depth : Nat) (callers : List Activation) : Machine :=
  match a.labels.drop depth with
  | [] => a.leave callers
  | label :: labels =>
    .running
      { a with
        operands := a.operands.take label.arity ++ label.below
        code := label.target
        labels }
      callers

/-- Carries out an instruction that neither branches nor calls. -/
def execute (env : Environment τ) (a : Activation) (i : Instr) : Action (Store σ) Activation :=
  match i, a.operands with
  | .const value, operands => pure { a with operands := value :: operands }
  | .eqz, .i32 x :: operands => pure { a with operands := .i32 (word (x = 0)) :: operands }
  | .binary op, .i32 y :: .i32 x :: operands =>
    match op.eval x y with
    | .ok z => pure { a with operands := .i32 z :: operands }
    | .error cause => stop cause
  | .load width offset, .i32 address :: operands => do
    let x ← loadWord width (address.toNat + offset)
    pure { a with operands := .i32 x :: operands }
  | .store width offset, .i32 x :: .i32 address :: operands => do
    storeWord width (address.toNat + offset) x
    pure { a with operands }
  | .memorySize, operands => do
    let some m := (← get).memory | stuck
    pure { a with operands := .i32 (UInt32.ofNat (pages m)) :: operands }
  | .memoryGrow, .i32 delta :: operands => do
    let before ← growMemory env.maxPages delta.toNat
    pure { a with operands := .i32 before :: operands }
  | .localGet i, operands =>
    match a.locals[i]? with
    | some value => pure { a with operands := value :: operands }
    | none => stuck
  | .localSet i, value :: operands =>
    pure { a with operands, locals := a.locals.setIfInBounds i value }
  | .globalGet i, operands => do
    match (← get).globals[i]? with
    | some value => pure { a with operands := value :: operands }
    | none => stuck
  | .globalSet i, value :: operands => do
    modify fun s => { s with globals := s.globals.setIfInBounds i value }
    pure { a with operands }
  | .drop, _ :: operands => pure { a with operands }
  | _, _ => stuck

/-- Carries out one instruction, or leaves a block or a function that is at its end. -/
def step (env : Environment τ) (a : Activation) (callers : List Activation) :
    Action (Store σ) Machine :=
  match a.code, a.labels with
  | [], [] => pure (a.leave callers)
  | [], label :: labels =>
    let operands := a.operands ++ label.below
    pure (.running { a with operands, code := label.rest, labels } callers)
  | i :: code, _ => do
    if !i.isFree then useFuel
    let a := { a with code }
    match i, a.operands with
    | .unreachable, _ => stop .unreachable
    | .return, _ => pure (a.leave callers)
    | .block results body, _ => pure (.running (a.enter results.length code body) callers)
    | .loop results body, _ => do
      checkFuel
      pure (.running (a.enter 0 (.loop results body :: code) body) callers)
    | .branchIf results yes no, .i32 c :: operands =>
      let a := { a with operands }
      pure (.running (a.enter results.length code (if c = 0 then no else yes)) callers)
    | .br depth, _ => pure (a.branch depth callers)
    | .brIf depth, .i32 c :: operands =>
      let a := { a with operands }
      pure (if c = 0 then .running a callers else a.branch depth callers)
    | .call function, operands =>
      match env.type? function with
      | some type =>
        let count := type.params.length
        pure (.calling function (operands.take count).reverse
          ({ a with operands := operands.drop count } :: callers))
      | none => stuck
    | i, _ => do pure (.running (← execute env a i) callers)

/-- A step depends on the types of the functions only, and on how far the memory may grow. -/
theorem step_congr {τ τ' : Type} {env : Environment τ} {env' : Environment τ'}
    (htype : env.type? = env'.type?) (hpages : env.maxPages = env'.maxPages) (a : Activation)
    (callers : List Activation) :
    (step env a callers : Action (Store σ) Machine) = step env' a callers := by
  have hexecute (a : Activation) (i : Instr) :
      (execute env a i : Action (Store σ) Activation) = execute env' a i := by
    simp only [execute, hpages]
  simp only [step, htype, hexecute]

/-- The activation of a function at its beginning. -/
def Function.activate (f : Function) (args : List Value) : Activation :=
  { arity := f.type.results.length
    locals := (args ++ f.locals.map Value.zero).toArray
    code := f.body }

/-- The first value that is not of its type, with the type that it should have. -/
def mismatch? : List ValueType → List Value → Option (ValueType × Value)
  | type :: types, value :: values =>
    if value.type = type then mismatch? types values else some (type, value)
  | _, _ => none

/-- Calls a function of the host, whose results must have the right types. -/
def HostFunction.call (f : HostFunction τ) (callback : Callback τ) (args : List Value) :
    Action τ (List Value) := do
  let results ← f.run callback args
  match mismatch? f.type.results results with
  | none => pure results
  | some (type, value) => stop (.resultType type value.type)

/-! ## Runs -/

/-- How a guest runs in a state that its store is a part of. -/
structure Manner (τ σ : Type) where
  store : Part τ (Store σ)
  /-- What is done before the guest carries out an instruction, or leaves a block or a function. -/
  before : Action τ Unit

/-- How a guest runs on its store alone. -/
@[reducible]
def Manner.plain : Manner (Store σ) σ where
  store := .whole
  before := pure ()

variable (k : Manner τ σ) (env : Environment τ)

/-- Runs a machine, for at most the given number of steps, until its last function has returned. -/
def exec : Nat → Machine → Action τ (List Value)
  | 0, _ => stop .outOfFuel
  | n + 1, .running a callers => do
    k.before
    exec n (← (step env a callers).within k.store)
  | n + 1, .calling function args callers =>
    match env.functions[function]? with
    | none => stuck
    | some (.host f) => do
      let results ← f.call (fun function args => exec n (.calling function args [])) args
      exec n (.returning results callers)
    | some (.guest f) => do
      checkFuel.within k.store
      useFuel.within k.store
      exec n (.running (f.activate args) callers)
  | _ + 1, .returning results [] => pure results
  | n + 1, .returning results (a :: callers) =>
    exec n (.running { a with operands := results.reverse ++ a.operands } callers)

/-- The number of steps after which a guest without limits is stopped: more than it can make. -/
def stepLimit : Nat := 1 <<< 62

/-- Calls a function by its number. -/
def invoke : Callback τ := fun function args => exec k env stepLimit (.calling function args [])

/-! ### On the store alone -/

section Plain

variable {env : Environment (Store σ)} {n : Nat}

theorem exec_plain_running (a : Activation) (callers : List Activation) :
    exec .plain env (n + 1) (.running a callers) = step env a callers >>= exec .plain env n := rfl

end Plain

end Wasm

end GuestHost
