import GuestHost.CommandLine.Arguments
import GuestHost.Config

/-!
# Invocations

What a command line asks for: to run a module, to look at one, or to tell the version.  Options in
front of the command say how much to log.  `RunOptions.configure` lays the options of a run over the
configuration of a file.
-/

namespace GuestHost

namespace CommandLine

/-- How a module is to be run. -/
structure RunOptions where
  /-- The path of the module, which is text. -/
  path : String
  /-- The arguments of the guest, besides the name of the program. -/
  args : List String := []
  /-- The environment of the guest, as pairs joined by a sign of equality. -/
  env : List String := []
  /-- The file that holds the configuration. -/
  config : Option String := none
  /-- The export to call, instead of running a command. -/
  invoke : Option String := none
  params : List Int32 := []
  stdin : Option UInt32 := none
  stdout : Option UInt32 := none
  stderr : Option UInt32 := none
  fuel : Option UInt64 := none
  /-- Whether a guest that asks to be ended goes on. -/
  noReturnOnExit : Bool := false
  trapUnknown : Bool := false
  deriving DecidableEq, Repr

/-- What is to be done. -/
inductive Command where
  | run (options : RunOptions)
  | inspect (path : String) (asJson : Bool)
  deriving DecidableEq, Repr

/-- What a command line asks for. -/
inductive Invocation where
  | command (verbosity : Nat) (command : Command)
  | version
  deriving DecidableEq, Repr

namespace RunOptions

/-- The options of a run. -/
def spec : CommandSpec where
  options :=
    [{ long := "env", short := some 'e', kind := .text, valueName := "ENV", isRepeatable := true },
      { long := "config", short := some 'c', kind := .path, valueName := "CONFIG" },
      { long := "invoke", kind := .text, valueName := "INVOKE" },
      { long := "param", kind := .int32, valueName := "PARAMS", isRepeatable := true
        takesNegative := true },
      { long := "stdin", kind := .word32, valueName := "STDIN" },
      { long := "stdout", kind := .word32, valueName := "STDOUT" },
      { long := "stderr", kind := .word32, valueName := "STDERR" },
      { long := "fuel", kind := .word64, valueName := "FUEL" },
      { long := "no-return-on-exit", kind := .none },
      { long := "trap-unknown", kind := .none }]
  takesArguments := true

/-- The number given for an option, as a word. -/
def word (a : Arguments) (long : String) : Option UInt32 :=
  (a.numbers long).head?.map fun n => UInt32.ofNat n.toNat

/-- The options that arguments give for a module. -/
def ofArguments (path : String) (a : Arguments) : RunOptions where
  path
  args := a.rest
  env := a.texts "env"
  config := (a.texts "config").head?
  invoke := (a.texts "invoke").head?
  params := (a.numbers "param").map Int32.ofInt
  stdin := word a "stdin"
  stdout := word a "stdout"
  stderr := word a "stderr"
  fuel := (a.numbers "fuel").head?.map fun n => UInt64.ofNat n.toNat
  noReturnOnExit := a.has "no-return-on-exit"
  trapUnknown := a.has "trap-unknown"

/-- Splits a pair at its first sign of equality.  The key must not be empty. -/
def splitPair? (text : String) : Option (String × String) :=
  let (key, value) := text.toList.span fun c => c != '='
  if key.isEmpty || value.isEmpty then none
  else some (String.ofList key, String.ofList (value.drop 1))

/-- What is wrong with a pair that cannot be split. -/
def pairMessage (text : String) : String :=
  "invalid environment variable '" ++ text ++ "': expected KEY=VALUE"

/-- Splits pairs, up to the first that is wrong. -/
def splitPairs : List String → Except String (List (String × String))
  | [] => .ok []
  | text :: texts =>
    match splitPair? text with
    | none => .error (pairMessage text)
    | some pair => (splitPairs texts).map fun pairs => pair :: pairs

variable (o : RunOptions)

/-- The arguments of the guest: the path of the module comes first unless the configuration has
arguments of its own. -/
def guestArgs (c : Config) : List String := (if c.args.isEmpty then [o.path] else c.args) ++ o.args

/-- Lays the options over a configuration. -/
def configure (c : Config) : Except String Config := do
  let pairs ← splitPairs o.env
  return { c with
    args := o.guestArgs c
    env := c.env ++ pairs
    stdio :=
      { stdin := o.stdin.getD c.stdio.stdin
        stdout := o.stdout.getD c.stdio.stdout
        stderr := o.stderr.getD c.stdio.stderr }
    fuelLimit := o.fuel <|> c.fuelLimit
    returnOnExit := c.returnOnExit && !o.noReturnOnExit
    trapUnknownImports := c.trapUnknownImports || o.trapUnknown }

end RunOptions

namespace Command

/-- The options of a look at a module. -/
def inspectSpec : CommandSpec where
  options := [{ long := "json", kind := .none }]
  takesArguments := false

/-- Reads a run and its arguments. -/
def readRun (texts : List String) : Except UsageFault Command := do
  let a ← Arguments.ofList RunOptions.spec texts
  let some path := a.path | throw .malformed
  return .run (.ofArguments path a)

/-- Reads a look at a module. -/
def readInspect (texts : List String) : Except UsageFault Command := do
  let a ← Arguments.ofList inspectSpec texts
  let some path := a.path | throw .malformed
  return .inspect path (a.has "json")

/-- The files that a command reads. -/
def files : Command → List String
  | .run o => o.config.toList ++ [o.path]
  | .inspect path _ => [path]

end Command

namespace Invocation

/-- What the letters of an option in front of a command ask for: a verbosity, or the version. -/
def letters (verbosity : Nat) : List Char → Except UsageFault (Option Nat)
  | [] => .ok (some verbosity)
  | 'v' :: rest => letters (verbosity + 1) rest
  | 'V' :: _ => .ok none
  | _ => .error .malformed

/-- Reads a command line after some options. -/
def readFrom (verbosity : Nat) : List String → Except UsageFault Invocation
  | [] => .error .malformed
  | text :: texts =>
    match text with
    | "run" => (Command.readRun texts).map (.command verbosity)
    | "inspect" => (Command.readInspect texts).map (.command verbosity)
    | "--verbose" => readFrom (verbosity + 1) texts
    | "--version" => .ok .version
    | _ =>
      match text.toList with
      | '-' :: letter :: rest =>
        match letters verbosity (letter :: rest) with
        | .ok (some verbosity) => readFrom verbosity texts
        | .ok none => .ok .version
        | .error e => .error e
      | _ => .error .malformed

/-- Reads a command line. -/
def read (texts : List String) : Except UsageFault Invocation := readFrom 0 texts

end Invocation

end CommandLine

end GuestHost
