import GuestHost.Bytes
import GuestHost.Errno

/-!
# Guest memory

Bounds-checked little-endian access to the linear memory of a guest.  An access is in bounds when
its start plus its length, as an exact number, is at most the size; any other access fails with
`Errno.fault` and changes nothing.  A transfer list is a list of `Iovec` entries: `gather` joins the
buffers it names and `scatter` spreads bytes over them.
-/

namespace GuestHost

/-- The linear memory of a guest. -/
structure Memory where
  bytes : ByteArray

namespace Memory

/-- The number of bytes. -/
def size (m : Memory) : Nat := m.bytes.size

/-- The bytes in order of their addresses. -/
def toList (m : Memory) : Bytes := m.bytes.data.toList

@[simp]
theorem length_toList (m : Memory) : m.toList.length = m.size := by
  simp [toList, size]

/-- A block of `n` zero bytes, built by doubling. -/
def zeros (n : Nat) : ByteArray :=
  if _h : n = 0 then .empty
  else
    let half := zeros (n / 2)
    if n % 2 = 0 then half ++ half else (half ++ half).push 0
termination_by n
decreasing_by omega

theorem size_zeros (n : Nat) : (zeros n).size = n := by
  fun_induction zeros n with
  | case1 => simp_all
  | case2 n hn half heven ih => simp [half, ih]; omega
  | case3 n hn half hodd ih => simp [half, ih]; omega

/-- A memory of `n` zero bytes. -/
def blank (n : Nat) : Memory := ⟨zeros n⟩

/-- A memory that holds the given bytes. -/
def ofList (bs : Bytes) : Memory := ⟨bs.toByteArray⟩

/-- The memory with `n` zero bytes added at its end. -/
def extend (m : Memory) (n : Nat) : Memory := ⟨m.bytes ++ zeros n⟩

/-- Whether `len` bytes from `start` lie inside the memory. -/
def InBounds (m : Memory) (start len : Nat) : Prop := start + len ≤ m.size

instance (m : Memory) (start len : Nat) : Decidable (m.InBounds start len) :=
  inferInstanceAs (Decidable (start + len ≤ m.size))

/-- Succeeds when `len` bytes from `start` lie inside the memory. -/
def check (m : Memory) (start len : Nat) : Except Errno Unit :=
  if m.InBounds start len then .ok () else .error .fault

/-- The `len` bytes from `start`, as far as they exist. -/
def slice (m : Memory) (start len : Nat) : Bytes :=
  (m.bytes.extract start (start + len)).data.toList

/-- The memory with `bs` laid over the bytes from `start`. -/
def overlay (m : Memory) (start : Nat) (bs : Bytes) : Memory :=
  ⟨bs.toByteArray.copySlice 0 m.bytes start bs.length⟩

/-- Reads `len` bytes from `start`. -/
def read (m : Memory) (start len : Nat) : Except Errno Bytes :=
  if m.InBounds start len then .ok (m.slice start len) else .error .fault

/-- Writes `bs` from `start` on. -/
def write (m : Memory) (start : Nat) (bs : Bytes) : Except Errno Memory :=
  if m.InBounds start bs.length then .ok (m.overlay start bs) else .error .fault

/-- Reads the 32-bit word at `start`. -/
def readU32 (m : Memory) (start : Nat) : Except Errno UInt32 := (m.read start 4).map Bytes.toU32

/-- Reads the 64-bit word at `start`. -/
def readU64 (m : Memory) (start : Nat) : Except Errno UInt64 := (m.read start 8).map Bytes.toU64

/-- Writes a 16-bit word at `start`. -/
def writeU16 (m : Memory) (start : Nat) (word : UInt16) : Except Errno Memory :=
  m.write start (.ofNat 2 word.toNat)

/-- Writes a 32-bit word at `start`. -/
def writeU32 (m : Memory) (start : Nat) (word : UInt32) : Except Errno Memory :=
  m.write start (.ofU32 word)

/-- Writes a 64-bit word at `start`. -/
def writeU64 (m : Memory) (start : Nat) (word : UInt64) : Except Errno Memory :=
  m.write start (.ofU64 word)

/-- The memory after a write, or the memory itself when the write is out of bounds. -/
def writeIfPossible (m : Memory) (start : Nat) (bs : Bytes) : Memory :=
  match m.write start bs with
  | .ok m => m
  | .error _ => m

/-! ## What an access does to the bytes -/

theorem slice_eq (m : Memory) (start len : Nat) :
    m.slice start len = (m.toList.drop start).take len := by
  simp [slice, toList, ByteArray.data_extract]

theorem length_slice {m : Memory} {start len : Nat} (h : m.InBounds start len) :
    (m.slice start len).length = len := by
  have h' : start + len ≤ m.size := h
  simp [slice_eq]
  omega

theorem toList_overlay (m : Memory) (start : Nat) (bs : Bytes) :
    (m.overlay start bs).toList =
      m.toList.take start ++ bs ++ m.toList.drop (start + bs.length) := by
  simp only [overlay, toList, ByteArray.copySlice]
  simp [List.take_of_length_le]

theorem size_overlay {m : Memory} {start : Nat} {bs : Bytes} (h : m.InBounds start bs.length) :
    (m.overlay start bs).size = m.size := by
  have h' : start + bs.length ≤ m.size := h
  rw [← length_toList, toList_overlay]
  simp
  omega

end Memory

/-! ## Transfer lists -/

/-- An entry of a transfer list: a buffer by its address and its length. -/
structure Iovec where
  base : UInt32
  len : UInt32
  deriving DecidableEq, Repr, Inhabited

namespace Iovec

/-- The number of bytes that an entry takes up in guest memory. -/
def width : Nat := 8

/-- The bytes of an entry in guest memory. -/
def encode (iov : Iovec) : Bytes := .ofU32 iov.base ++ .ofU32 iov.len

/-- The entries that these bytes hold, one for each eight bytes. -/
def decodeList : Bytes → List Iovec
  | b0 :: b1 :: b2 :: b3 :: l0 :: l1 :: l2 :: l3 :: rest =>
    ⟨Bytes.toU32 [b0, b1, b2, b3], Bytes.toU32 [l0, l1, l2, l3]⟩ :: decodeList rest
  | _ => []

/-- The sum of the buffer lengths. -/
def capacity (iovs : List Iovec) : Nat := iovs.foldr (fun iov room => iov.len.toNat + room) 0

@[simp]
theorem capacity_nil : capacity [] = 0 := rfl

@[simp]
theorem capacity_cons (iov : Iovec) (rest : List Iovec) :
    capacity (iov :: rest) = iov.len.toNat + capacity rest := rfl

end Iovec

namespace Memory

/-- Reads the `count` entries of the transfer list at `start`.  The list takes up fewer than 2³²
bytes and is in bounds; the buffers it names are not looked at. -/
def readIovecs (m : Memory) (start : Nat) (count : UInt32) : Except Errno (List Iovec) :=
  let len := Iovec.width * count.toNat
  if len < UInt32.size then (m.read start len).map Iovec.decodeList else .error .fault

/-- The buffers of a transfer list one after the other.  Empty buffers may lie anywhere. -/
def gather (m : Memory) : List Iovec → Except Errno Bytes
  | [] => .ok []
  | iov :: rest =>
    if iov.len = 0 then m.gather rest
    else
      match m.read iov.base.toNat iov.len.toNat with
      | .error e => .error e
      | .ok bs =>
        match m.gather rest with
        | .error e => .error e
        | .ok more => .ok (bs ++ more)

/-- How `bs` is spread over a transfer list: each buffer is filled before the next one is begun, and
nothing follows the last byte. -/
def spread : List Iovec → Bytes → List (Nat × Bytes)
  | [], _ => []
  | _, [] => []
  | iov :: rest, bs =>
    (iov.base.toNat, bs.take iov.len.toNat) :: spread rest (bs.drop iov.len.toNat)

/-- Spreads `bs` over the buffers of a transfer list and counts the bytes that found room.  Every
buffer that is reached is checked before anything is written. -/
def scatter (m : Memory) (iovs : List Iovec) (bs : Bytes) : Except Errno (Nat × Memory) :=
  let parts := spread iovs bs
  if parts.all fun part => m.InBounds part.1 part.2.length then
    .ok ((parts.flatMap Prod.snd).length,
      parts.foldl (fun m part => m.overlay part.1 part.2) m)
  else .error .fault

/-- Checks every buffer of a transfer list. -/
def checkBuffers (m : Memory) (iovs : List Iovec) : Except Errno Unit :=
  if iovs.all fun iov => m.InBounds iov.base.toNat iov.len.toNat then .ok () else .error .fault

end Memory

end GuestHost
