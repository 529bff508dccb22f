import GuestHost.Wasm.Module

/-!
# Validation

A module is valid when its numbers name something and each instruction finds operands of the types
that it takes.  `Module.isValid` decides this by following the types of the operands through every
body; after an instruction that does not come back, operands of any type may be taken.
-/

namespace GuestHost

namespace Wasm

namespace Validation

/-- What an instruction may refer to. -/
structure Context where
  functions : List FunctionType
  globals : List Global
  hasMemory : Bool
  locals : List ValueType
  /-- The types that a branch to each of the enclosing blocks carries, the innermost first.  The
  outermost block is the body. -/
  labels : List (List ValueType)
  results : List ValueType

/-- The types of the operands, the topmost first. -/
structure Operands where
  types : List ValueType
  /-- Whether there are more operands below, of any type. -/
  isOpen : Bool := false

namespace Operands

/-- No operands that are known. -/
def unknown : Operands := ⟨[], true⟩

/-- Takes an operand of a type. -/
def pop (type : ValueType) : Operands → Option Operands
  | ⟨t :: types, isOpen⟩ => if t = type then some ⟨types, isOpen⟩ else none
  | ⟨[], true⟩ => some unknown
  | ⟨[], false⟩ => none

/-- Takes an operand. -/
def popAny : Operands → Option Operands
  | ⟨_ :: types, isOpen⟩ => some ⟨types, isOpen⟩
  | ⟨[], true⟩ => some unknown
  | ⟨[], false⟩ => none

/-- Takes operands of the given types, the last of which is topmost. -/
def popAll (types : List ValueType) (s : Operands) : Option Operands :=
  types.reverse.foldlM (fun s type => s.pop type) s

/-- Adds an operand. -/
def push (type : ValueType) (s : Operands) : Operands := { s with types := type :: s.types }

/-- Adds operands, the last of which becomes topmost. -/
def pushAll (types : List ValueType) (s : Operands) : Operands :=
  { s with types := types.reverse ++ s.types }

/-- Takes operands and adds others. -/
def apply (type : FunctionType) (s : Operands) : Option Operands :=
  (s.popAll type.params).map (pushAll type.results)

/-- Whether the operands are just those of the given types. -/
def isExactly (types : List ValueType) (s : Operands) : Bool :=
  match s.popAll types with
  | some rest => rest.types.isEmpty
  | none => false

end Operands

mutual

/-- Follows the types of the operands through an instruction. -/
def instr (c : Context) (s : Operands) : Instr → Option Operands
  | .const value => some (s.push value.type)
  | .eqz => s.apply ⟨[.i32], [.i32]⟩
  | .binary _ => s.apply ⟨[.i32, .i32], [.i32]⟩
  | .load _ _ => if c.hasMemory then s.apply ⟨[.i32], [.i32]⟩ else none
  | .store _ _ => if c.hasMemory then s.apply ⟨[.i32, .i32], []⟩ else none
  | .memorySize => if c.hasMemory then some (s.push .i32) else none
  | .memoryGrow => if c.hasMemory then s.apply ⟨[.i32], [.i32]⟩ else none
  | .localGet i => (c.locals[i]?).map fun type => s.push type
  | .localSet i => (c.locals[i]?).bind fun type => s.pop type
  | .globalGet i => (c.globals[i]?).map fun g => s.push g.type
  | .globalSet i => (c.globals[i]?).bind fun g => if g.isMutable then s.pop g.type else none
  | .call i => (c.functions[i]?).bind s.apply
  | .drop => s.popAny
  | .unreachable => some .unknown
  | .return => (s.popAll c.results).map fun _ => .unknown
  | .block results body =>
    if block { c with labels := results :: c.labels } results body then some (s.pushAll results)
    else none
  | .loop results body =>
    if block { c with labels := [] :: c.labels } results body then some (s.pushAll results)
    else none
  | .branchIf results yes no =>
    (s.pop .i32).bind fun s =>
      let c := { c with labels := results :: c.labels }
      if block c results yes && block c results no then some (s.pushAll results) else none
  | .br depth => (c.labels[depth]?).bind fun types => (s.popAll types).map fun _ => .unknown
  | .brIf depth =>
    (c.labels[depth]?).bind fun types => (s.pop .i32).bind fun s => s.apply ⟨types, types⟩

/-- Follows the types of the operands through instructions. -/
def instrs (c : Context) (s : Operands) : List Instr → Option Operands
  | [] => some s
  | i :: rest =>
    match instr c s i with
    | none => none
    | some s => instrs c s rest

/-- Whether a body that begins without operands leaves just its results. -/
def block (c : Context) (results : List ValueType) (body : List Instr) : Bool :=
  match instrs c ⟨[], false⟩ body with
  | none => false
  | some s => s.isExactly results

end

/-- Whether a function is valid in a module. -/
def function (m : Module) (f : Function) : Bool :=
  block
    { functions := m.functionTypes
      globals := m.globals
      hasMemory := !m.allMemories.isEmpty
      locals := f.type.params ++ f.locals
      labels := [f.type.results]
      results := f.type.results }
    f.type.results f.body

/-- Whether a memory may have these numbers of pages. -/
def limits (l : Limits) : Bool :=
  l.min ≤ maxPages && l.max.all fun max => l.min ≤ max && max ≤ maxPages

/-- Whether an export names something. -/
def exported (m : Module) : Export → Bool
  | .function index => index < m.functionTypes.length
  | .memory index => index < m.allMemories.length
  | .global index => index < m.globals.length

end Validation

/-- Whether a module is valid. -/
def Module.isValid (m : Module) : Bool :=
  m.functions.all (Validation.function m) &&
  m.memories.length ≤ 1 &&
  m.allMemories.all Validation.limits &&
  m.globals.all (fun g => g.init.type = g.type) &&
  decide (m.exports.map Prod.fst).Nodup &&
  m.exports.all (fun e => Validation.exported m e.2) &&
  (m.data.isEmpty || !m.allMemories.isEmpty) &&
  m.start.all fun index => m.functionType? index = some ⟨[], []⟩

end Wasm

end GuestHost
