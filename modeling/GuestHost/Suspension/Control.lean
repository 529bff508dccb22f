import GuestHost.Fault
import GuestHost.Wasm.Module

/-!
# The controls of an instrumented guest

A guest that was instrumented for suspension exports five functions by which the host controls it.
`Controls.find` looks them up.  A guest that does not export the first is not instrumented; one that
exports the first must export them all.
-/

namespace GuestHost

namespace Suspension

/-- Reads the code of a state. -/
def State.ofCode (code : Int32) : Except Fault State :=
  match ofCode? code with
  | some s => .ok s
  | none => .error (.suspension (.unknownState code))

/-- A function by which the host controls a guest. -/
inductive Control where
  | getState
  | startUnwind
  | stopUnwind
  | startRewind
  | stopRewind
  deriving DecidableEq, Repr, Inhabited

namespace Control

/-- Every control, in the order in which they are looked up. -/
def all : List Control := [getState, startUnwind, stopUnwind, startRewind, stopRewind]

/-- The name under which a control is exported. -/
def name : Control → String
  | getState => "asyncify_get_state"
  | startUnwind => "asyncify_start_unwind"
  | stopUnwind => "asyncify_stop_unwind"
  | startRewind => "asyncify_start_rewind"
  | stopRewind => "asyncify_stop_rewind"

/-- The type of a control. -/
def type : Control → Wasm.FunctionType
  | getState => ⟨[], [.i32]⟩
  | startUnwind | startRewind => ⟨[.i32], []⟩
  | stopUnwind | stopRewind => ⟨[], []⟩

/-- Whether a control is exported under a name. -/
def isName (name : String) : Bool := all.any fun c => c.name == name

theorem mem_all (c : Control) : c ∈ all := by cases c <;> simp [all]

/-- Looks a control up among the exports of a module. -/
def find (m : Wasm.Module) (c : Control) : Except Fault Nat :=
  match m.function? c.name with
  | none =>
    .error (.missingExport (c.name ++ ": failed to find function export `" ++ c.name ++ "`"))
  | some index =>
    if m.functionType? index = some c.type then .ok index
    else
      .error (.missingExport
        (c.name ++ ": failed to convert function `" ++ c.name ++ "` to given type"))

end Control

/-- The numbers of the functions that are the controls of a guest. -/
structure Controls where
  getState : Nat
  startUnwind : Nat
  stopUnwind : Nat
  startRewind : Nat
  stopRewind : Nat
  deriving DecidableEq, Repr

/-- Looks up the controls of a module, if it is instrumented. -/
def Controls.find (m : Wasm.Module) : Except Fault (Option Controls) := do
  if (m.function? Control.getState.name).isNone then return none
  let getState ← Control.getState.find m
  let startUnwind ← Control.startUnwind.find m
  let stopUnwind ← Control.stopUnwind.find m
  let startRewind ← Control.startRewind.find m
  let stopRewind ← Control.stopRewind.find m
  return some { getState, startUnwind, stopUnwind, startRewind, stopRewind }

/-- Whether a module exports functions under the names of all controls. -/
def isInstrumented (m : Wasm.Module) : Bool := Control.all.all fun c => (m.function? c.name).isSome

end Suspension

end GuestHost
