import GuestHost.CommandLine.Number

/-!
# Arguments

How the arguments of a command are told apart.  A command takes options, then the path of a module,
then maybe further arguments, which are taken as they are.  Options may also stand after the path.
An option is known by a long name, and maybe by a letter; its value is attached to it or comes next.
A value is checked when what follows it is understood, or at the end.
-/

namespace GuestHost

namespace CommandLine

/-- The value of an option. -/
inductive OptionValue where
  /-- The option takes no value. -/
  | present
  | text (value : String)
  | number (value : Int)
  deriving DecidableEq, Repr

/-- What an option takes for a value. -/
inductive ValueKind where
  | none
  | text
  /-- The path of a file, which is not empty. -/
  | path
  /-- A signed number of 32 bits. -/
  | int32
  /-- An unsigned number of 32 bits. -/
  | word32
  /-- An unsigned number of 64 bits. -/
  | word64
  deriving DecidableEq, Repr

/-- An option of a command. -/
structure OptionSpec where
  long : String
  short : Option Char := none
  kind : ValueKind
  /-- What a message calls the value. -/
  valueName : String := ""
  isRepeatable : Bool := false
  /-- Whether the next argument is the value even if it is a negative number. -/
  takesNegative : Bool := false
  deriving DecidableEq, Repr

/-- What a message calls an option. -/
def OptionSpec.display (o : OptionSpec) : String := "--" ++ o.long ++ " <" ++ o.valueName ++ ">"

/-- Whether an option takes a value. -/
def OptionSpec.takesValue (o : OptionSpec) : Bool := o.kind ≠ .none

/-- What a command takes. -/
structure CommandSpec where
  options : List OptionSpec
  /-- Whether there may be arguments after the path of the module. -/
  takesArguments : Bool
  deriving DecidableEq, Repr

/-- Why arguments are refused. -/
inductive UsageFault where
  /-- They do not have the form that a command takes. -/
  | malformed
  | missingValue (display : String)
  | invalidValue (value display : String) (cause : NumberFailure)
  deriving DecidableEq, Repr

namespace UsageFault

/-- Where to look for help. -/
def hint : List String := ["", "For more information, try '--help'."]

/-- The lines that report a fault. -/
def report : UsageFault → List String
  | malformed => ["usage error"]
  | missingValue display =>
    ("error: a value is required for '" ++ display ++ "' but none was supplied") :: hint
  | invalidValue value display cause =>
    ("error: invalid value '" ++ value ++ "' for '" ++ display ++ "': " ++ cause.message) :: hint

end UsageFault

/-- Reads the path of a file. -/
def readPath (display value : String) : Except UsageFault String :=
  if value.isEmpty then .error (.missingValue display) else .ok value

/-- Reads the value of an option. -/
def OptionSpec.read (o : OptionSpec) (value : String) : Except UsageFault OptionValue :=
  let number (r : Except NumberFailure Int) : Except UsageFault OptionValue :=
    match r with
    | .ok n => .ok (.number n)
    | .error cause => .error (.invalidValue value o.display cause)
  match o.kind with
  | .none => .ok .present
  | .text => .ok (.text value)
  | .path => (readPath o.display value).map .text
  | .int32 => number (inRange Int32.minValue.toInt Int32.maxValue.toInt value)
  | .word32 => number (inRange 0 (UInt32.size - 1) value)
  | .word64 => number ((unsigned value).map Int.ofNat)

/-- What was read last and is not checked yet. -/
inductive Pending where
  | none
  /-- An option whose value comes next. -/
  | awaiting (option : OptionSpec)
  | value (option : OptionSpec) (text : String)
  | path (text : String)
  deriving Repr

/-- What was read so far. -/
structure Arguments where
  options : List (String × OptionValue) := []
  path : Option String := none
  rest : List String := []
  pending : Pending := .none
  /-- Whether there are no options any more. -/
  isTrailing : Bool := false
  deriving Repr

namespace Arguments

/-- What a message calls the path of the module. -/
def pathDisplay : String := "<MODULE>"

/-- Adds an option, which is given once unless it is repeatable. -/
def addOption (a : Arguments) (o : OptionSpec) (value : String) : Except UsageFault Arguments := do
  if !o.isRepeatable && (a.options.lookup o.long).isSome then throw .malformed
  return { a with options := a.options ++ [(o.long, ← o.read value)] }

/-- Checks what is pending. -/
def settle (a : Arguments) : Except UsageFault Arguments :=
  match a.pending with
  | .none => .ok a
  | .awaiting o => .error (.missingValue o.display)
  | .value o text => { a with pending := .none }.addOption o text
  | .path text =>
    (readPath pathDisplay text).map fun path => { a with pending := .none, path := some path }

/-- Takes an option, maybe with a value attached. -/
def takeOption (a : Arguments) (o : OptionSpec) (attached : Option String) :
    Except UsageFault Arguments :=
  match o.takesValue, attached with
  | false, some _ => .error .malformed
  | false, none => do (← a.settle).addOption o ""
  | true, none => do return { ← a.settle with pending := .awaiting o }
  | true, some value => do (← a.settle).addOption o value

/-- Whether the path of the module has been given. -/
def hasPath (a : Arguments) : Bool :=
  a.path.isSome ||
    match a.pending with
    | .path _ => true
    | _ => false

/-- Takes an argument that belongs to no option.  From the first one after the path on, all are
taken as they are. -/
def takePositional (c : CommandSpec) (a : Arguments) (text : String) :
    Except UsageFault Arguments :=
  if !a.hasPath then do return { ← a.settle with pending := .path text }
  else if c.takesArguments then do
    let a ← a.settle
    return { a with rest := a.rest ++ [text], isTrailing := true }
  else .error .malformed

/-- Takes the letters of short options.  The first that takes a value takes what follows it. -/
def takeLetters (c : CommandSpec) (a : Arguments) : List Char → Except UsageFault Arguments
  | [] => .ok a
  | letter :: letters =>
    match c.options.find? fun o => o.short = some letter with
    | none => .error .malformed
    | some o =>
      if o.takesValue then
        match letters with
        | [] => a.takeOption o none
        | '=' :: value => a.takeOption o (some (String.ofList value))
        | value => a.takeOption o (some (String.ofList value))
      else do takeLetters c (← a.takeOption o none) letters

/-- Takes a long option, with its value attached by a sign of equality if there is one. -/
def takeLong (c : CommandSpec) (a : Arguments) (text : List Char) : Except UsageFault Arguments :=
  let (name, value) := text.span fun ch => ch != '='
  match c.options.find? fun o => o.long.toList = name with
  | none => .error .malformed
  | some o =>
    a.takeOption o (if value.isEmpty then none else some (String.ofList (value.drop 1)))

/-- Takes an argument that is not an option: the value that an option awaits, or a positional. -/
def takeValue (c : CommandSpec) (a : Arguments) (text : String) : Except UsageFault Arguments :=
  match a.pending with
  | .awaiting o => .ok { a with pending := .value o text }
  | _ => a.takePositional c text

/-- Whether an option awaits a value that may be a negative number. -/
def awaitsNegative (a : Arguments) : Bool :=
  match a.pending with
  | .awaiting o => o.takesNegative
  | _ => false

/-- Takes the next argument. -/
def take (c : CommandSpec) (a : Arguments) (text : String) : Except UsageFault Arguments :=
  if a.isTrailing then a.takePositional c text
  else
    match text.toList with
    | ['-', '-'] => .ok { a with isTrailing := true }
    | '-' :: '-' :: long => a.takeLong c long
    | '-' :: letter :: letters =>
      if a.awaitsNegative && looksNumeric (letter :: letters) then a.takeValue c text
      else a.takeLetters c (letter :: letters)
    | _ => a.takeValue c text

/-- Tells the arguments of a command apart. -/
def ofList (c : CommandSpec) (texts : List String) : Except UsageFault Arguments := do
  (← texts.foldlM (take c) {}).settle

/-! ## What options say -/

variable (a : Arguments)

/-- The values of an option, in order. -/
def values (long : String) : List OptionValue :=
  (a.options.filter fun o => o.1 == long).map Prod.snd

/-- Whether an option was given. -/
def has (long : String) : Bool := !(a.values long).isEmpty

/-- The texts given for an option. -/
def texts (long : String) : List String :=
  (a.values long).filterMap fun
    | .text value => some value
    | _ => none

/-- The numbers given for an option. -/
def numbers (long : String) : List Int :=
  (a.values long).filterMap fun
    | .number value => some value
    | _ => none

end Arguments

end CommandLine

end GuestHost
