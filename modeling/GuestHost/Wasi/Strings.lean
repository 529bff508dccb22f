import GuestHost.Memory
import GuestHost.Text.Utf8

/-!
# String blocks

How a guest receives its arguments and its environment: a block in which a NUL follows every entry,
and an array of the addresses of the entries.  The block of no entries is a single NUL.

The guest has words of 32 bits.  The number of the entries, the size of the block and the addresses
are such words, and they wrap around if there is too much to hand over.
-/

namespace GuestHost

/-- Texts for a guest, each as its bytes. -/
structure StringBlock where
  entries : List Bytes
  deriving DecidableEq, Repr, Inhabited

namespace StringBlock

/-- The block of the given texts. -/
def ofTexts (texts : List String) : StringBlock := ⟨texts.map Utf8.encode⟩

/-- The number of entries. -/
def count (b : StringBlock) : Nat := b.entries.length

/-- The bytes of the block. -/
def bytes (b : StringBlock) : Bytes :=
  if b.entries.isEmpty then [0] else b.entries.flatMap fun entry => entry ++ [0]

/-- Where the entries begin in the block. -/
def offsets : (start : Nat) → List Bytes → List Nat
  | _, [] => []
  | start, entry :: rest => start :: offsets (start + entry.length + 1) rest

theorem length_offsets (start : Nat) (entries : List Bytes) :
    (offsets start entries).length = entries.length := by
  induction entries generalizing start with
  | nil => rfl
  | cons entry rest ih => simp [offsets, ih]

/-- Stores the number of entries and the size of the block. -/
def storeSizes (b : StringBlock) (m : Memory) (countPtr sizePtr : UInt32) :
    Except Errno Memory := do
  if countPtr = 0 || sizePtr = 0 then throw .inval
  m.check countPtr.toNat 4
  m.check sizePtr.toNat 4
  let m ← m.writeU32 countPtr.toNat (.ofNat b.count)
  m.writeU32 sizePtr.toNat (.ofNat b.bytes.length)

/-- Stores the addresses of the entries from number `i` on, one word after the other, up to the
first that has no room.  The entries begin at the given offsets from `buf`. -/
def storePointers (ptrs buf : UInt32) : (i : Nat) → (offsets : List UInt32) → Memory →
    Except Errno Unit × Memory
  | _, [], m => (.ok (), m)
  | i, offset :: rest, m =>
    match m.writeU32 (ptrs + UInt32.ofNat i * 4).toNat (buf + offset) with
    | .ok m => storePointers ptrs buf (i + 1) rest m
    | .error e => (.error e, m)

/-- Fails unless the array and the block have room, by what the words say of their sizes. -/
def checkRoom (b : StringBlock) (m : Memory) (ptrs buf : UInt32) : Except Errno Unit := do
  if ptrs = 0 || buf = 0 then throw .inval
  m.check ptrs.toNat (UInt32.ofNat b.count * 4).toNat
  m.check buf.toNat (UInt32.ofNat b.bytes.length).toNat

/-- Stores the addresses of the entries and then the block.  What was stored before a failure
stays. -/
def store (b : StringBlock) (m : Memory) (ptrs buf : UInt32) : Except Errno Unit × Memory :=
  match b.checkRoom m ptrs buf with
  | .error e => (.error e, m)
  | .ok () =>
    match storePointers ptrs buf 0 ((offsets 0 b.entries).map .ofNat) m with
    | (.error e, m) => (.error e, m)
    | (.ok (), m) =>
      match m.write buf.toNat b.bytes with
      | .ok m => (.ok (), m)
      | .error e => (.error e, m)

end StringBlock

end GuestHost
