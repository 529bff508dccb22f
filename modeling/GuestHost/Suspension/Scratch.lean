import GuestHost.Fault
import GuestHost.Memory

/-!
# The scratch region of an instrumented guest

An unwinding guest saves its frames in a region of its own memory.  The host places the bounds of
the region, two words, where the guest looks for them.
-/

namespace GuestHost

namespace Suspension

/-- Where the bounds of a scratch region are kept, and what they are. -/
structure Scratch where
  /-- The address of the two bounds. -/
  dataPtr : UInt32 := 16
  /-- The first byte of the region. -/
  start : UInt32 := 24
  /-- The byte after the last. -/
  stop : UInt32 := 1024
  deriving DecidableEq, Repr, Inhabited

namespace Scratch

/-- Writes the two bounds.  The first stays written when there is no room for the second. -/
def writeBounds (s : Scratch) (m : Memory) : Except Fault Unit × Memory :=
  match m.writeU32 s.dataPtr.toNat s.start with
  | .error e => (.error (.suspension (.boundsUnwritable s.dataPtr e)), m)
  | .ok m =>
    match m.writeU32 (s.dataPtr + 4).toNat s.stop with
    | .error e => (.error (.suspension (.boundsUnwritable s.dataPtr e)), m)
    | .ok m => (.ok (), m)

end Scratch

end Suspension

end GuestHost
