import GuestHost.CommandLine.Invocation
import GuestHost.Config.Reader
import GuestHost.Instance

/-!
# The command line

A command line runs a module on a host of its own, or shows what a module imports and exports.
`Invocation.execute` does so for files and an input that are given to it, and reports the exit code
and what is written.
-/

namespace GuestHost

namespace CommandLine

/-- What the program leaves behind. -/
structure Report where
  code : UInt8 := 0
  stdout : List String := []
  stderr : List String := []
  deriving DecidableEq, Repr

/-- Why a command failed: what was being done, and the fault behind it. -/
structure Failure where
  context : String
  cause : Option Fault := none

/-- The lines that report a failure. -/
def Failure.report (f : Failure) : List String :=
  ("Error: " ++ f.context) ::
    match f.cause with
    | none => []
    | some cause => ["", "Caused by:", "    " ++ cause.message]

/-- The sink of the lines on standard output. -/
def stdoutSink : Sink := ⟨1⟩

/-- The sink of the lines on standard error. -/
def stderrSink : Sink := ⟨2⟩

/-- The lines that reached a sink. -/
def linesOf (sink : Sink) (emitted : List Emission) : List String :=
  (emitted.filter fun e => e.sink = sink).map Emission.line

/-- The report of a run whose guest emitted lines.  What is printed follows them. -/
def Report.ofRun (emitted : List Emission) (result : Except Failure (Int32 × List String)) :
    Report :=
  let out := linesOf stdoutSink emitted
  let err := linesOf stderrSink emitted
  match result with
  | .ok (code, printed) => ⟨code.toUInt32.toUInt8, out ++ printed, err⟩
  | .error f => ⟨1, out, err ++ f.report⟩

/-- The report of a failure before any guest could run. -/
def Report.ofFailure (context : String) (cause : Option Fault := none) : Report :=
  .ofRun [] (.error { context, cause })

/-! ## Running a module -/

/-- The function that every guest may import: it lets the guest wait, which takes no time here. -/
def sleepImport : HostImport where
  key := ⟨"env", "async_sleep"⟩
  type := ⟨[.i32], []⟩
  answer _ := .pending (.ok [])

/-- The functions that every guest may import besides those of WASI. -/
def imports : ImportSet := .ofList [sleepImport]

/-- How a result is printed. -/
def renderValue : Wasm.Value → String
  | .i32 word => toString word.toInt32.toInt
  | .i64 word => toString word.toInt64.toInt
  | .f32 bits => Decimal.plainText .binary32 bits.toNat
  | .f64 bits => Decimal.plainText .binary64 bits.toNat
  | .v128 bits => "V128(" ++ toString bits.toNat ++ ")"
  | .nullExtern => "ExternRef(None)"
  | .nullFunc => "FuncRef(None)"

/-- The line that shows the results of a call. -/
def renderValues (values : List Wasm.Value) : String := " ".intercalate (values.map renderValue)

/-- What a run comes to once the guest has ended: its exit code, and what is printed. -/
abbrev Ending := Except Failure (Int32 × List String)

/-- What a step of a call comes to that did not succeed: a guest that asks to be ended is not a
failure. -/
def interrupted (context : String) : Fault → Ending
  | .exit code => .ok (code, [])
  | f => .error ⟨context, f⟩

section Guest

variable {Θ τ : Type} (k : Instance.Manner Θ τ)

/-- Runs a command to its end. -/
def runCommand (t : Θ) : Ending × Θ :=
  match k.start.apply t with
  | (.ok outcome, t) => (.ok (outcome.code, []), t)
  | (.error f, t) => (.error ⟨"guest failed", f⟩, t)

/-- Calls an export of a reactor and prints its results. -/
def runExport (name : String) (params : List Int32) (t : Θ) : Ending × Θ :=
  match k.begin.apply t with
  | (.error f, t) => (interrupted "initialization failed" f, t)
  | (.ok (), t) =>
    let args := params.map fun n => Wasm.Value.i32 n.toUInt32
    match (k.call name args).apply t with
    | (.error f, t) => (interrupted ("call to " ++ name ++ " failed") f, t)
    | (.ok values, t) => (.ok (0, [renderValues values]), k.flush t)

/-- Runs a guest as the options say. -/
def runGuest (o : RunOptions) (t : Θ) : Ending × Θ :=
  match o.invoke with
  | none => runCommand k t
  | some name => runExport k name o.params t

end Guest

/-- Runs a module with a configuration. -/
def runModule (o : RunOptions) (c : Config) (m : GuestModule) (stdin : Bytes) : Report :=
  let streams := Table.StandardStreams.over (.ofBytes stdin) stdoutSink stderrSink
  match Instance.create c m.code imports streams with
  | .error r => .ofRun r.emitted (.error ⟨"failed to instantiate module", r.cause⟩)
  | .ok i =>
    let (ending, i) := runGuest .plain o i
    .ofRun i.wasi.emitted ending

/-- The configuration that a run begins with. -/
def RunOptions.baseConfig (o : RunOptions) (file : String → Option Bytes) : Except Failure Config :=
  match o.config with
  | none => .ok {}
  | some path =>
    (Config.ofFile (file path)).mapError fun f => ⟨"failed to load config " ++ path, some f⟩

/-- Runs a module with the files that there are. -/
def run (o : RunOptions) (file : String → Option Bytes) (stdin : Bytes) : Report :=
  match o.baseConfig file with
  | .error f => .ofFailure f.context f.cause
  | .ok base =>
    match o.configure base with
    | .error message => .ofFailure message
    | .ok c =>
      match GuestModule.ofFile o.path (file o.path) with
      | .error f => .ofFailure ("failed to load " ++ o.path) f
      | .ok m => runModule o c m stdin

/-! ## Looking at a module -/

/-- The lines of a JSON list inside an object. -/
def jsonList (key : String) (items : List String) : List String :=
  if items.isEmpty then ["  " ++ Quoted.json key ++ ": []"]
  else
    ["  " ++ Quoted.json key ++ ": ["] ++
      (items.dropLast.map fun item => "    " ++ Quoted.json item ++ ",") ++
      (items.getLast?.toList.map fun item => "    " ++ Quoted.json item) ++ ["  ]"]

/-- A line, or the last of some lines, with a comma after it. -/
def withComma (lines : List String) : List String :=
  lines.dropLast ++ lines.getLast?.toList.map fun line => line ++ ","

/-- The lines that show a module as JSON. -/
def renderJson (m : GuestModule) : List String :=
  ["\x7b", "  \"name\": " ++ Quoted.json m.name ++ ",",
    "  \"asyncified\": " ++ (if m.isInstrumented then "true" else "false") ++ ","] ++
    withComma (jsonList "exports" m.exports) ++
    jsonList "imports" (m.imports.map ImportKey.dotted) ++ ["\x7d"]

/-- The lines that show a list with its length. -/
def renderList (title : String) (items : List String) : List String :=
  (title ++ " (" ++ toString items.length ++ "):") :: items.map fun item => "  " ++ item

/-- The lines that show a module. -/
def renderText (m : GuestModule) : List String :=
  ["=== Module: " ++ m.name ++ " ===", "",
    "Asyncify:  " ++ (if m.isInstrumented then "yes" else "no"), ""] ++
    renderList "Exports" m.exports ++ [""] ++
    renderList "Imports" (m.imports.map ImportKey.dotted)

/-- Shows a module. -/
def inspect (path : String) (asJson : Bool) (file : String → Option Bytes) : Report :=
  match GuestModule.ofFile path (file path) with
  | .error f => .ofFailure ("failed to load " ++ path) f
  | .ok m => { stdout := if asJson then renderJson m else renderText m }

/-! ## Doing what is asked for -/

/-- The name and the version of the program. -/
def versionLine : String := "wasi-shim 0.1.0"

/-- Does what a command line asks for, with the files that there are and an input. -/
def Invocation.execute (file : String → Option Bytes) (stdin : Bytes) : Invocation → Report
  | .version => { stdout := [versionLine] }
  | .command _ (.run o) => run o file stdin
  | .command _ (.inspect path asJson) => inspect path asJson file

/-- The report of a command line that is refused. -/
def Report.ofUsage (f : UsageFault) : Report := { code := 2, stderr := f.report }

/-- Does what a list of arguments asks for. -/
def execute (texts : List String) (file : String → Option Bytes) (stdin : Bytes) : Report :=
  match Invocation.read texts with
  | .error f => .ofUsage f
  | .ok i => i.execute file stdin

end CommandLine

end GuestHost
