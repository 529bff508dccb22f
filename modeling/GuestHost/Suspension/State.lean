/-!
# The states of an instrumented guest

A guest that was instrumented for suspension is running, saving its frames on the way out, or
restoring them on the way back in.
-/

namespace GuestHost

namespace Suspension

/-- What an instrumented guest is doing. -/
inductive State where
  /-- Running as usual. -/
  | normal
  /-- Saving its frames on the way out. -/
  | unwinding
  /-- Restoring its frames on the way back in. -/
  | rewinding
  deriving DecidableEq, Repr, Inhabited

namespace State

/-- The raw value of a state. -/
def code (s : State) : Nat := s.ctorIdx

/-- The name of a state in messages. -/
def name : State → String
  | normal => "None"
  | unwinding => "Unwinding"
  | rewinding => "Rewinding"

/-- The state with the given raw value. -/
def ofCode? (code : Int32) : Option State :=
  if code = 0 then some normal
  else if code = 1 then some unwinding
  else if code = 2 then some rewinding
  else none

theorem ofCode?_code (s : State) : ofCode? (Int32.ofNat s.code) = some s := by
  cases s <;> decide

end State

end Suspension

end GuestHost
