import GuestHost.Suspension.Scratch

/-!
# Configuration

What a host gives a guest to start with and how far the guest may go, with defaults for all of it.
-/

namespace GuestHost

/-- The configuration of a guest and its host. -/
structure Config where
  /-- The command-line arguments, the name of the program included. -/
  args : List String := []
  /-- The environment, in the order the guest sees it. -/
  env : List (String × String) := []
  /-- The host descriptors behind the standard streams. -/
  stdio : StandardFds := {}
  /-- The number of slots that a descriptor table starts with. -/
  tableSize : UInt64 := 3
  /-- Whether a guest that asks to be ended is ended. -/
  returnOnExit : Bool := true
  /-- Where a guest saves its frames. -/
  scratch : Suspension.Scratch := {}
  /-- The most bytes of memory that a guest may have. -/
  maxMemory : UInt64 := 256 * 1024 * 1024
  /-- How much fuel a guest gets, if it is metered. -/
  fuelLimit : Option UInt64 := none
  /-- How hard the engine works on its code, from 0 to 2. -/
  optimizationLevel : UInt8 := 2
  /-- Whether an import that nobody provides may be linked, to trap when it is called. -/
  trapUnknownImports : Bool := false
  deriving DecidableEq, Repr, Inhabited

namespace Config

/-- The configuration for a guest that is kept on a short leash. -/
def minimal : Config := { maxMemory := 64 * 1024 * 1024, fuelLimit := some 1000000000 }

/-- The configuration for a guest under development. -/
def development : Config := { optimizationLevel := 0, trapUnknownImports := true }

/-- Adds an argument. -/
def addArg (c : Config) (arg : String) : Config := { c with args := c.args ++ [arg] }

/-- Adds arguments. -/
def addArgs (c : Config) (args : List String) : Config := { c with args := c.args ++ args }

/-- Adds an environment variable. -/
def addEnv (c : Config) (key value : String) : Config := { c with env := c.env ++ [(key, value)] }

/-- Sets how hard the engine works, at most 2. -/
def withOptimization (c : Config) (level : UInt8) : Config :=
  { c with optimizationLevel := min level 2 }

end Config

end GuestHost
