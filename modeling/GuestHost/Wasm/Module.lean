import GuestHost.Fault

/-!
# WebAssembly modules

Modules and their instructions: constants, arithmetic on 32-bit integers, one memory, local and
global variables, and structured control.  Functions, locals and globals are numbered; a branch
counts the blocks that it leaves.
-/

namespace GuestHost

namespace Wasm

/-- An operation on two 32-bit integers. -/
inductive BinaryOp where
  | add
  | sub
  | mul
  /-- The signed quotient. -/
  | divS
  /-- The unsigned remainder. -/
  | remU
  | eq
  | ne
  /-- Less than, unsigned. -/
  | ltU
  /-- At most, signed. -/
  | leS
  deriving DecidableEq, Repr

/-- How wide an access to memory is. -/
inductive AccessWidth where
  | byte
  | word
  deriving DecidableEq, Repr

/-- The number of bytes of an access. -/
def AccessWidth.bytes : AccessWidth → Nat
  | byte => 1
  | word => 4

/-- An instruction. -/
inductive Instr where
  | const (value : Value)
  | eqz
  | binary (op : BinaryOp)
  /-- Loads an unsigned integer. -/
  | load (width : AccessWidth) (offset : Nat)
  | store (width : AccessWidth) (offset : Nat)
  | memorySize
  | memoryGrow
  | localGet (index : Nat)
  | localSet (index : Nat)
  | globalGet (index : Nat)
  | globalSet (index : Nat)
  | call (function : Nat)
  | drop
  | unreachable
  | return
  | block (results : List ValueType) (body : List Instr)
  | loop (results : List ValueType) (body : List Instr)
  | branchIf (results : List ValueType) (yes no : List Instr)
  | br (depth : Nat)
  | brIf (depth : Nat)
  deriving Repr, Inhabited

/-- A function of a module. -/
structure Function where
  type : FunctionType
  /-- The types of the variables besides the parameters. -/
  locals : List ValueType
  body : List Instr
  deriving Repr, Inhabited

/-- How many pages a memory has to begin with and may have at most. -/
structure Limits where
  min : Nat
  max : Option Nat := none
  deriving DecidableEq, Repr, Inhabited

/-- A variable of a module. -/
structure Global where
  type : ValueType
  isMutable : Bool
  init : Value
  deriving DecidableEq, Repr, Inhabited

/-- What a module asks for. -/
inductive ImportType where
  | function (type : FunctionType)
  | memory (limits : Limits)
  deriving DecidableEq, Repr

/-- What a module gives. -/
inductive Export where
  | function (index : Nat)
  | memory (index : Nat)
  | global (index : Nat)
  deriving DecidableEq, Repr

/-- Bytes that are laid into memory when a module is set up. -/
structure DataSegment where
  offset : UInt32
  bytes : Bytes
  deriving DecidableEq, Repr

/-- A module.  The functions and memories that it imports are numbered before its own. -/
structure Module where
  imports : List (ImportKey × ImportType) := []
  functions : List Function := []
  memories : List Limits := []
  globals : List Global := []
  exports : List (String × Export) := []
  data : List DataSegment := []
  /-- The function that runs when the module is set up. -/
  start : Option Nat := none
  deriving Repr, Inhabited

/-- The number of bytes in a page of memory. -/
def pageSize : Nat := 65536

/-- The largest number of pages. -/
def maxPages : Nat := 65536

namespace Module

variable (m : Module)

/-- The types of the imported functions. -/
def importedFunctions : List FunctionType :=
  m.imports.filterMap fun
    | (_, .function type) => some type
    | _ => none

/-- The imported memories. -/
def importedMemories : List Limits :=
  m.imports.filterMap fun
    | (_, .memory limits) => some limits
    | _ => none

/-- The types of all functions, in the order of their numbers. -/
def functionTypes : List FunctionType := m.importedFunctions ++ m.functions.map Function.type

/-- All memories, in the order of their numbers. -/
def allMemories : List Limits := m.importedMemories ++ m.memories

/-- What is exported under a name. -/
def export? (name : String) : Option Export := (m.exports.find? fun e => e.1 == name).map Prod.snd

/-- The number of the function that is exported under a name. -/
def function? (name : String) : Option Nat :=
  match m.export? name with
  | some (.function index) => some index
  | _ => none

/-- Whether a memory is exported under a name. -/
def hasMemory (name : String) : Bool :=
  match m.export? name with
  | some (.memory _) => true
  | _ => false

/-- The type of the function with the given number. -/
def functionType? (index : Nat) : Option FunctionType := m.functionTypes[index]?

/-- The names of the exported functions, in order. -/
def functionNames : List String :=
  m.exports.filterMap fun
    | (name, .function _) => some name
    | _ => none

/-- The keys of the imports, in order. -/
def importKeys : List ImportKey := m.imports.map Prod.fst

end Module

end Wasm

end GuestHost
