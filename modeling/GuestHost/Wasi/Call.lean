import GuestHost.Wasi

/-!
# System calls

The calls of a guest, each with its arguments.  `Syscall.run` answers a call with an error number
and the state and the memory it leaves behind.  A call that needs a descriptor names the rights it
needs; a transfer stores the number of bytes it moved, or 0 if it failed.
-/

namespace GuestHost

/-- A call with its arguments.  Addresses and descriptors are words of the guest. -/
inductive Syscall where
  | argsSizesGet (argc bufSize : UInt32)
  | argsGet (argv buf : UInt32)
  | environSizesGet (count bufSize : UInt32)
  | environGet (environ buf : UInt32)
  | fdClose (fd : UInt32)
  | fdFdstatGet (fd stat : UInt32)
  | fdPrestatGet (fd prestat : UInt32)
  | fdPrestatDirName (fd path pathLen : UInt32)
  | fdSeek (fd : UInt32) (offset : Int64) (whence : UInt8) (newOffset : UInt32)
  | fdTell (fd offset : UInt32)
  | fdRead (fd iovs iovsLen nread : UInt32)
  | fdWrite (fd iovs iovsLen nwritten : UInt32)
  deriving DecidableEq, Repr

namespace Syscall

/-- What a call leaves behind: its answer, the state and the memory. -/
structure Result where
  errno : Errno
  wasi : Wasi
  memory : Memory

/-- The record that describes a descriptor: its filetype, no flags, and its two masks, each at a
multiple of its width. -/
def fdstat (d : Descriptor) : Bytes :=
  Bytes.ofNat 2 d.filetype.code ++ Bytes.ofNat 2 0 ++ Bytes.ofNat 4 0 ++
    Bytes.ofU64 d.base.bits ++ Bytes.ofU64 d.inheriting.bits

/-- The size of the record. -/
def fdstatSize : Nat := 24

/-- Where the filetype stands in the record. -/
def fdstatFiletypeOffset : Nat := 0

/-- Where the flags stand in the record. -/
def fdstatFlagsOffset : Nat := 2

/-- Where the base rights stand in the record. -/
def fdstatBaseOffset : Nat := 8

/-- Where the inheriting rights stand in the record. -/
def fdstatInheritingOffset : Nat := 16

theorem length_fdstat (d : Descriptor) : (fdstat d).length = fdstatSize := by
  simp [fdstat, fdstatSize, Bytes.ofU64]

variable (s : Wasi) (m : Memory)

/-- The result of a call that changes only memory, or nothing if it fails. -/
def storing (outcome : Except Errno Memory) : Result :=
  match outcome with
  | .ok m => ⟨.success, s, m⟩
  | .error e => ⟨e, s, m⟩

/-- The result of a call that stores its answer piece by piece.  If it fails, the memory is as it
was left by then. -/
def handing (outcome : Except Errno Unit × Memory) : Result :=
  match outcome with
  | (.ok (), m) => ⟨.success, s, m⟩
  | (.error e, m) => ⟨e, s, m⟩

/-- Moves the cursor of a file and stores where it is.  Other streams accept any seek at 0, which is
stored if there is room. -/
def seek (fd : UInt32) (offset : Int64) (whence : UInt8) (newOffset : UInt32) : Result :=
  match s.table.lookup fd.toNat (.single .fdSeek) with
  | .error e => ⟨e, s, m⟩
  | .ok d =>
    if !d.stream.isFile then
      ⟨.success, s, if newOffset = 0 then m else m.writeIfPossible newOffset.toNat (.ofU64 0)⟩
    else
      match Whence.ofCode whence with
      | .error e => ⟨e, s, m⟩
      | .ok whence =>
        match d.stream.seek offset.toInt whence with
        | .error e => ⟨e, s, m⟩
        | .ok stream =>
          let s := s.setStream fd.toNat stream
          if newOffset = 0 then ⟨.success, s, m⟩
          else storing s m (m.writeU64 newOffset.toNat (.ofNat stream.tell))

/-- Stores the position of a stream. -/
def tell (fd offset : UInt32) : Except Errno Memory := do
  if offset = 0 then throw .inval
  let d ← s.table.lookup fd.toNat (.single .fdTell)
  m.writeU64 offset.toNat (.ofNat d.stream.tell)

/-- What a transfer moved, and the state and the memory it leaves behind. -/
structure Transfer where
  count : Nat
  wasi : Wasi
  memory : Memory

/-- Takes one chunk from a stream and spreads it over the buffers of a transfer list.  The buffers
are checked before the stream is touched, and a cancelled read may still have used up a line. -/
def receive (fd iovs iovsLen : UInt32) : Except Errno Transfer × Wasi :=
  let start : Except Errno (Descriptor × List Iovec) := do
    let d ← s.table.lookup fd.toNat (.single .fdRead)
    let iovs ← m.readIovecs iovs.toNat iovsLen
    m.checkBuffers iovs
    pure (d, iovs)
  match start with
  | .error e => (.error e, s)
  | .ok (d, iovs) =>
    match d.stream.read (Iovec.capacity iovs) with
    | .error e => (.error e, s)
    | .ok (.cancelled, stream) => (.error .canceled, s.setStream fd.toNat stream)
    | .ok (.data bytes, stream) =>
      let s := s.setStream fd.toNat stream
      match m.scatter iovs bytes with
      | .error e => (.error e, s)
      | .ok (count, m) => (.ok ⟨count, s, m⟩, s)

/-- Hands the buffers of a transfer list to a stream as one run of bytes. -/
def send (fd iovs iovsLen : UInt32) : Except Errno Transfer := do
  let d ← s.table.lookup fd.toNat (.single .fdWrite)
  let iovs ← m.readIovecs iovs.toNat iovsLen
  let bytes ← m.gather iovs
  if UInt32.size ≤ bytes.length then throw .overflow
  let (lines, stream) ← d.stream.write bytes
  pure ⟨bytes.length, (s.setStream fd.toNat stream).emit lines, m⟩

/-- Stores the count of a transfer.  A count that does not fit a word is an overflow, and a transfer
that failed stores 0 if there is room. -/
def conclude (out : UInt32) (transfer : Except Errno Transfer) : Result :=
  match transfer with
  | .error e => ⟨e, s, m.writeIfPossible out.toNat (.ofU32 0)⟩
  | .ok t =>
    if t.count < UInt32.size then
      storing t.wasi t.memory (t.memory.writeU32 out.toNat (.ofNat t.count))
    else ⟨.overflow, t.wasi, t.memory.writeIfPossible out.toNat (.ofU32 0)⟩

/-- Answers a call. -/
def run : Syscall → Result
  | .argsSizesGet argc bufSize => storing s m (s.args.storeSizes m argc bufSize)
  | .argsGet argv buf => handing s (s.args.store m argv buf)
  | .environSizesGet count bufSize => storing s m (s.env.storeSizes m count bufSize)
  | .environGet environ buf => handing s (s.env.store m environ buf)
  | .fdClose _ => ⟨.success, s, m⟩
  | .fdFdstatGet fd stat =>
    if stat = 0 then ⟨.inval, s, m⟩
    else
      match s.table.lookup fd.toNat with
      | .error e => ⟨e, s, m⟩
      | .ok d => storing s m (m.write stat.toNat (fdstat d))
  | .fdPrestatGet _ _ | .fdPrestatDirName _ _ _ => ⟨.badf, s, m⟩
  | .fdSeek fd offset whence newOffset => seek s m fd offset whence newOffset
  | .fdTell fd offset => storing s m (tell s m fd offset)
  | .fdRead fd iovs iovsLen nread =>
    if iovs = 0 || nread = 0 then ⟨.inval, s, m⟩
    else
      let (transfer, s) := receive s m fd iovs iovsLen
      conclude s m nread transfer
  | .fdWrite fd iovs iovsLen nwritten =>
    if iovs = 0 || nwritten = 0 then ⟨.inval, s, m⟩
    else conclude s m nwritten (send s m fd iovs iovsLen)

end Syscall

end GuestHost
