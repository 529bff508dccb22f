import GuestHost.Config
import GuestHost.Wasi.Strings

/-!
# What a guest talks to

A `Wasi` state holds what lies behind the calls of a guest: its arguments and environment, its
descriptor table, and the exit code once it has asked to be ended.  `emitted` collects the lines
that reached a sink, in order.
-/

namespace GuestHost

/-- What a host does when a guest asks to be ended. -/
inductive ExitAction where
  /-- It ends the guest and reports the code. -/
  | terminate (code : Int32)
  /-- It returns to the guest. -/
  | continue
  deriving DecidableEq, Repr

/-- The state behind the calls of a guest. -/
structure Wasi where
  args : StringBlock
  env : StringBlock
  table : Table
  returnOnExit : Bool
  exitCode : Option Int32 := none
  emitted : List Emission := []
  deriving Repr, Inhabited

namespace Wasi

/-- The entry of an environment variable. -/
def envEntry (pair : String × String) : String := pair.1 ++ "=" ++ pair.2

/-- The state that a configuration describes.  It fails if a standard stream does not land in its
slot. -/
def ofConfig (c : Config) (streams : Table.StandardStreams) : Except Fault Wasi :=
  match (Table.empty c.tableSize.toNat).insertStandards c.stdio streams with
  | (some m, _) => .error (.misplaced m)
  | (none, table) =>
    .ok
      { args := .ofTexts c.args
        env := .ofTexts (c.env.map envEntry)
        table
        returnOnExit := c.returnOnExit }

/-- The state after lines have reached their sinks. -/
def emit (s : Wasi) (lines : List Emission) : Wasi := { s with emitted := s.emitted ++ lines }

/-- Replaces the stream of a descriptor. -/
def setStream (s : Wasi) (fd : Nat) (stream : Stream) : Wasi :=
  { s with table := s.table.setStream fd stream }

/-- Emits the incomplete lines of all outputs. -/
def flush (s : Wasi) : Wasi :=
  let (lines, table) := s.table.flush
  { s with table }.emit lines

/-- Ends the guest, as far as the configuration has it: the code is kept, and output is flushed. -/
def exit (s : Wasi) (code : Int32) : ExitAction × Wasi :=
  (if s.returnOnExit then .terminate code else .continue, { s with exitCode := some code }.flush)

end Wasi

end GuestHost
