import GuestHost.CommandLine

/-!
The program: it reads the files that a command line names and writes what it comes to.
-/

open GuestHost CommandLine

/-- The contents of a file, if it can be read. -/
def fileContents (path : String) : IO (Option Bytes) := do
  try return some (← IO.FS.readBinFile path).data.toList
  catch _ => return none

/-- The contents of the files that a command reads. -/
def commandFiles (i : Invocation) : IO (List (String × Option Bytes)) :=
  match i with
  | .version => pure []
  | .command _ command => command.files.mapM fun path => do return (path, ← fileContents path)

/-- The input of a command that runs a guest. -/
def commandInput (i : Invocation) : IO Bytes := do
  match i with
  | .command _ (.run _) => return (← (← IO.getStdin).readBinToEnd).data.toList
  | _ => return []

/-- Does what a command line asks for. -/
def main (args : List String) : IO UInt32 := do
  let report ←
    match Invocation.read args with
    | .error f => pure (Report.ofUsage f)
    | .ok i =>
      let files ← commandFiles i
      pure (i.execute (fun path => (files.lookup path).join) (← commandInput i))
  for line in report.stdout do IO.println line
  for line in report.stderr do IO.eprintln line
  return report.code.toUInt32
