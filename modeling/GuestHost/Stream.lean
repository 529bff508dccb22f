import GuestHost.Stream.Input
import GuestHost.Stream.Output
import GuestHost.Stream.File

/-!
# Streams

What a descriptor leads to: standard input, an output or a file.  An operation that fails gives no
stream back, so the old one stays as it was.  A write and a flush also give the lines that reach a
sink.
-/

namespace GuestHost

/-- The stream of a descriptor. -/
inductive Stream where
  | input (input : Input)
  | output (output : Output)
  | file (file : File)
  deriving DecidableEq, Repr, Inhabited

namespace Stream

/-- Reads at most `max` bytes. -/
def read (max : Nat) : Stream → Except Errno (Delivery × Stream)
  | input i => let (delivery, i) := i.read max; .ok (delivery, input i)
  | output _ => .error .badf
  | file f => let (bytes, f) := f.read max; .ok (.data bytes, file f)

/-- Writes all of `bs`. -/
def write (bs : Bytes) : Stream → Except Errno (List Emission × Stream)
  | input _ => .error .badf
  | output o => let (lines, o) := o.write bs; .ok (lines, output o)
  | file f => (f.write bs).map fun f => ([], file f)

/-- The position: the cursor of a file, and 0 for a stream that has none. -/
def tell : Stream → Nat
  | input _ | output _ => 0
  | file f => f.cursor

/-- Moves the cursor of a file.  A stream without a position accepts any seek. -/
def seek (offset : Int) (whence : Whence) : Stream → Except Errno Stream
  | input i => .ok (input i)
  | output o => .ok (output o)
  | file f => (f.seek offset whence).map file

/-- Emits an incomplete line. -/
def flush : Stream → List Emission × Stream
  | input i => ([], input i)
  | output o => let (lines, o) := o.flush; (lines, output o)
  | file f => ([], file f)

/-- Whether the stream is a file. -/
def isFile : Stream → Bool
  | file _ => true
  | _ => false

/-- How a standard stream shows in a log. -/
def describe? : Stream → Option String
  | input i =>
    some ("Input(StandardInput \x7b queued: " ++ toString i.queued ++ ", .. \x7d)")
  | output o =>
    some ("Output(StandardOutput \x7b pending: " ++ toString o.pending.length ++ ", .. \x7d)")
  | file _ => none

end Stream

end GuestHost
