import GuestHost.Fault
import GuestHost.Path
import GuestHost.Suspension.Control
import GuestHost.Wasm.Text
import GuestHost.Wasm.Validation

/-!
# Guest modules

A module with the name it goes by.  It is read from bytes, which are either text or the header of an
empty module in the binary format, and it must be valid.
-/

namespace GuestHost

/-- A valid module with its name. -/
structure GuestModule where
  name : String
  code : Wasm.Module

namespace GuestModule

/-- The four bytes that every binary module begins with. -/
def magic : Bytes := [0, 97, 115, 109]

/-- The bytes of a binary module without any sections. -/
def emptyBinary : Bytes := magic ++ [1, 0, 0, 0]

/-- Reads a module.  Of the binary format, only the empty module is known. -/
def read? (bytes : Bytes) : Option Wasm.Module :=
  if bytes.take 4 = magic then if bytes = emptyBinary then some {} else none
  else do Wasm.Module.ofText? (← Utf8.decode? bytes).toList

/-- Reads a valid module. -/
def valid? (bytes : Bytes) : Option Wasm.Module := (read? bytes).filter Wasm.Module.isValid

/-- Makes a module of bytes. -/
def ofBytes (name : String) (bytes : Bytes) : Except Fault GuestModule :=
  match valid? bytes with
  | some code => .ok ⟨name, code⟩
  | none => .error (.wasm (.creation "not a valid module"))

/-- Makes a module of the contents of a file, if there are any.  It is named after the file. -/
def ofFile (path : String) (contents? : Option Bytes) : Except Fault GuestModule :=
  match contents?.bind valid? with
  | some code => .ok ⟨(Path.fileStem? path).getD "unknown", code⟩
  | none => .error (.wasm (.load "not a valid module"))

/-- The names of the exported functions. -/
def exports (m : GuestModule) : List String := m.code.functionNames

/-- The keys of the imports. -/
def imports (m : GuestModule) : List ImportKey := m.code.importKeys

/-- Whether a module looks instrumented for suspension. -/
def isInstrumented (m : GuestModule) : Bool := Suspension.isInstrumented m.code

end GuestModule

end GuestHost
