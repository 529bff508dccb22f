import GuestHost.Descriptor.Table
import GuestHost.Json.Reader
import GuestHost.Suspension.State
import GuestHost.Wasm.Value

/-!
# Faults

A fault stops a guest, or keeps it from being started, and is reported to the host.  (A failure that
the guest hears of is an `Errno`.)  Each constructor is a cause; `Fault.message` words it.
-/

namespace GuestHost

/-- What names an import: the module it belongs to and its own name. -/
structure ImportKey where
  moduleName : String
  name : String
  deriving DecidableEq, Repr, Inhabited

/-- The key with a dot between its parts. -/
def ImportKey.dotted (key : ImportKey) : String := key.moduleName ++ "." ++ key.name

/-- The key with two colons between its parts, between backquotes. -/
def ImportKey.quoted (key : ImportKey) : String :=
  "`" ++ key.moduleName ++ "::" ++ key.name ++ "`"

/-- Why a guest stopped running. -/
inductive Trap where
  /-- It reached an instruction that must not be reached. -/
  | unreachable
  /-- It divided by zero. -/
  | divideByZero
  /-- The quotient of a division does not fit its type. -/
  | integerOverflow
  /-- It used an address outside its memory. -/
  | outOfBounds
  /-- It used up its fuel. -/
  | outOfFuel
  /-- It was called with the wrong number of arguments. -/
  | argumentCount (expected actual : Nat)
  /-- It was called with an argument of the wrong type. -/
  | argumentType (expected actual : Wasm.ValueType)
  /-- An import answered with a result of the wrong type. -/
  | resultType (expected actual : Wasm.ValueType)
  /-- An import answered with the wrong number of results. -/
  | resultCount (key : ImportKey) (actual expected : Nat)
  /-- It called an import that nobody provides. -/
  | unknownImport (key : ImportKey)
  /-- An import failed for a reason of its own. -/
  | host (text : String)
  deriving DecidableEq, Repr

/-- The wording of a trap. -/
def Trap.message : Trap → String
  | unreachable => "wasm trap: wasm `unreachable` instruction executed"
  | divideByZero => "wasm trap: integer divide by zero"
  | integerOverflow => "wasm trap: integer overflow"
  | outOfBounds => "wasm trap: out of bounds memory access"
  | outOfFuel => "wasm trap: all fuel consumed by WebAssembly"
  | argumentCount expected actual =>
    "expected " ++ toString expected ++ " arguments, got " ++ toString actual
  | argumentType expected actual =>
    "argument type mismatch: type mismatch: expected " ++ expected.name ++ ", found " ++ actual.name
  | resultType expected actual =>
    "function attempted to return an incompatible value: type mismatch: expected " ++
      expected.name ++ ", found " ++ actual.name
  | resultCount key actual expected =>
    "import " ++ key.dotted ++ " produced " ++ toString actual ++ " values, expected " ++
      toString expected
  | unknownImport key => "unknown import: " ++ key.quoted ++ " has not been defined"
  | host text => text

/-- What goes wrong before a guest runs, or around its memory. -/
inductive EngineFailure where
  /-- The bytes of a module are not one. -/
  | creation (detail : String)
  /-- The file of a module cannot be read, or is not one. -/
  | load (detail : String)
  /-- A module cannot be linked or set up. -/
  | instantiation (detail : String)
  /-- Two definitions have the same key. -/
  | definedTwice (key : ImportKey)
  /-- The host read outside a guest's memory. -/
  | readOutOfBounds
  /-- The host wrote outside a guest's memory. -/
  | writeOutOfBounds
  /-- Another failure, described by its text. -/
  | other (text : String)
  deriving DecidableEq, Repr

/-- The wording of an engine failure. -/
def EngineFailure.message : EngineFailure → String
  | creation detail => "module creation failed: " ++ detail
  | load detail => "module load failed: " ++ detail
  | instantiation detail => "instantiation failed: " ++ detail
  | definedTwice key =>
    "failed to register " ++ key.dotted ++ ": import of " ++ key.quoted ++ " defined twice"
  | readOutOfBounds => "memory read out of bounds"
  | writeOutOfBounds => "memory write out of bounds"
  | other text => text

/-- How a guest or its host breaks the rules of suspension. -/
inductive Violation where
  /-- A guest reports a state that there is none of. -/
  | unknownState (code : Int32)
  /-- A second value is awaited while one is on its way. -/
  | alreadyInFlight
  /-- A guest unwound although nothing is awaited. -/
  | nothingPending
  /-- A guest rewound although no value has arrived. -/
  | nothingResolved
  /-- The bounds of the scratch region do not fit the memory. -/
  | boundsUnwritable (address : UInt32) (cause : Errno)
  /-- An import awaits a value, but the guest cannot be suspended. -/
  | notInstrumented
  /-- An import with a reference among its results awaits a value. -/
  | referenceResult
  /-- Another violation, described by its text. -/
  | other (text : String)
  deriving DecidableEq, Repr

/-- The wording of a violation. -/
def Violation.message : Violation → String
  | unknownState code => "unknown asyncify state " ++ toString code.toInt
  | alreadyInFlight => "a host value is already in flight"
  | nothingPending => "guest unwound without a pending host value"
  | nothingResolved => "guest rewound without a resolved host value"
  | boundsUnwritable address cause =>
    "cannot write scratch bounds at " ++ toString address ++ ": " ++ cause.describe
  | notInstrumented =>
    "host import returned a pending value but the module has no asyncify exports"
  | referenceResult => "reference-typed results cannot cross a suspension"
  | other text => text

/-- Why a file could not be read. -/
inductive FileFailure where
  /-- There is no such file. -/
  | notFound
  /-- The contents are not text. -/
  | notUtf8
  deriving DecidableEq, Repr

/-- The wording of a file failure. -/
def FileFailure.message : FileFailure → String
  | notFound => "No such file or directory (os error 2)"
  | notUtf8 => "stream did not contain valid UTF-8"

/-- A failure that is reported to the host. -/
inductive Fault where
  /-- The module or its engine. -/
  | wasm (cause : EngineFailure)
  /-- A configuration that makes no sense. -/
  | config (text : String)
  /-- A guest without a memory under the usual name. -/
  | missingMemory
  /-- An export that must be there is not. -/
  | missingExport (name : String)
  /-- An export that must not be there is. -/
  | unexpectedExport (name : String)
  /-- A guest that is started a second time. -/
  | alreadyStarted
  /-- A standard stream in the wrong slot. -/
  | misplaced (cause : Table.Misplaced)
  /-- A guest in another state of suspension than the rules require. -/
  | suspensionState (expected actual : Suspension.State)
  /-- Any other break of the rules of suspension. -/
  | suspension (cause : Violation)
  /-- A guest that stopped running. -/
  | trap (cause : Trap)
  /-- A guest that asked to be ended. -/
  | exit (code : Int32)
  /-- A file that could not be read. -/
  | file (cause : FileFailure)
  /-- A configuration file that could not be understood. -/
  | json (cause : Json.Failure)
  deriving DecidableEq, Repr

/-- The wording of a fault. -/
def Fault.message : Fault → String
  | wasm cause => "WASM error: " ++ cause.message
  | config text => "configuration error: " ++ text
  | missingMemory => "no memory export found"
  | missingExport name => "export '" ++ name ++ "' not found"
  | unexpectedExport name => "export '" ++ name ++ "' must not be present"
  | alreadyStarted => "WASI instance has already started"
  | misplaced cause =>
    "standard descriptor " ++ cause.stream.name ++ " landed at table id " ++
      toString cause.actual ++ ", expected " ++ toString cause.stream.slot
  | suspensionState expected actual =>
    "asyncify state error: expected " ++ expected.name ++ ", found " ++ actual.name
  | suspension cause => "asyncify protocol violation: " ++ cause.message
  | trap cause => "guest trapped: " ++ cause.message
  | exit code => "guest exited with code " ++ toString code.toInt
  | file cause => "IO error: " ++ cause.message
  | json (.mismatch description) => "invalid configuration file: " ++ description
  | json _ => "invalid configuration file"

end GuestHost
