import GuestHost.Bytes
import GuestHost.Errno

/-!
# Files in memory

A `File` is a run of bytes and a cursor.  A read moves the cursor to the end of what it took, which
for a cursor past the end is the end of the file; a write extends the file with zeros up to the
cursor.
-/

namespace GuestHost

/-- What a seek counts from. -/
inductive Whence where
  /-- The start of the file. -/
  | start
  /-- The cursor. -/
  | current
  /-- The end of the file. -/
  | «end»
  deriving DecidableEq, Repr

/-- The reference point with the given raw value. -/
def Whence.ofCode (code : UInt8) : Except Errno Whence :=
  if code = 0 then .ok .start
  else if code = 1 then .ok .current
  else if code = 2 then .ok .end
  else .error .inval

/-- A regular file held in memory. -/
structure File where
  contents : Bytes
  cursor : Nat := 0
  deriving DecidableEq, Repr, Inhabited

namespace File

/-- The number of bytes of the file. -/
def size (f : File) : Nat := f.contents.length

/-- Reads at most `max` bytes at the cursor. -/
def read (f : File) (max : Nat) : Bytes × File :=
  let start := min f.cursor f.size
  let bytes := (f.contents.drop start).take max
  (bytes, { f with cursor := start + bytes.length })

/-- The contents after `bs` is laid over them at `start`, with zeros in any gap. -/
def patched (contents : Bytes) (start : Nat) (bs : Bytes) : Bytes :=
  contents.take start ++ List.replicate (start - contents.length) 0 ++ bs ++
    contents.drop (start + bs.length)

/-- Writes at the cursor. -/
def write (f : File) (bs : Bytes) : Except Errno File :=
  let stop := f.cursor + bs.length
  if stop < UInt64.size then .ok { contents := patched f.contents f.cursor bs, cursor := stop }
  else .error .fbig

/-- Where a seek leads: `offset` from the start, `offset` past the cursor, or `offset` before the
end. -/
def target (f : File) (offset : Int) : Whence → Int
  | .start => offset
  | .current => f.cursor + offset
  | .end => f.size - offset

/-- The numbers that fit a signed 64-bit word. -/
def fitsI64 (n : Int) : Prop := Int64.minValue.toInt ≤ n ∧ n ≤ Int64.maxValue.toInt

instance (n : Int) : Decidable (fitsI64 n) :=
  inferInstanceAs (Decidable (Int64.minValue.toInt ≤ n ∧ n ≤ Int64.maxValue.toInt))

/-- Moves the cursor. -/
def seek (f : File) (offset : Int) (whence : Whence) : Except Errno File :=
  if fitsI64 f.size ∧ fitsI64 f.cursor ∧ fitsI64 (f.target offset whence) then
    if f.target offset whence < 0 then .error .inval
    else .ok { f with cursor := (f.target offset whence).toNat }
  else .error .overflow

theorem length_patched (contents : Bytes) (start : Nat) (bs : Bytes) :
    (patched contents start bs).length = max contents.length (start + bs.length) := by
  simp [patched]
  omega

theorem cursor_read_le (f : File) (max : Nat) : (f.read max).2.cursor ≤ f.size := by
  simp [read, size]
  omega

end File

end GuestHost
