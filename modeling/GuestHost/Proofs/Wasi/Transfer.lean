import GuestHost.Proofs.Memory
import GuestHost.Proofs.Stream
import GuestHost.Wasi.Call

/-!
# What a seek and a transfer do

Each of them is described once: `seek_cases` says everything that a seek can do, `received`
everything that receiving can do, `send_cases` everything that sending can do, and `conclude_stored`
how the count is stored.  In particular a chunk that a stream has handed out always finds room, for
the buffers were checked before and the stream was asked for no more than they hold.
-/

namespace GuestHost

/-! ## Putting a stream back -/

namespace Wasi

variable {s : Wasi} {id : Nat} {d : Descriptor}

theorem setStream_self (h : s.table.get? id = some d) : s.setStream id d.stream = s := by
  rw [setStream, Table.setStream_self h]

theorem emit_nil (s : Wasi) : s.emit [] = s := by
  rw [emit, List.append_nil]

end Wasi

namespace Syscall

variable {s : Wasi} {m : Memory} {fd iovs iovsLen : UInt32} {d : Descriptor}

/-! ## Storing an answer -/

/-- A word that is stored if there is room either is stored or changes nothing. -/
theorem writeIfPossible_cases (m : Memory) (start : Nat) (bs : Bytes) :
    m.write start bs = .ok (m.writeIfPossible start bs) ∨ m.writeIfPossible start bs = m := by
  unfold Memory.writeIfPossible
  cases h : m.write start bs with
  | ok m' => exact .inl rfl
  | error e => exact .inr rfl

/-! ## Seeking -/

section Seek

variable {newOffset : UInt32} {offset : Int64} {code : UInt8}

/-- A file that has moved its cursor stores where it is. -/
theorem seek_moved {whence : Whence} {stream : Stream}
    (hlookup : s.table.lookup fd.toNat (.single .fdSeek) = .ok d) (hfile : d.stream.isFile)
    (hwhence : Whence.ofCode code = .ok whence)
    (hseek : d.stream.seek offset.toInt whence = .ok stream) :
    seek s m fd offset code newOffset =
      if newOffset = 0 then ⟨.success, s.setStream fd.toNat stream, m⟩
      else storing (s.setStream fd.toNat stream) m
        (m.writeU64 newOffset.toNat (.ofNat stream.tell)) := by
  simp only [seek, hlookup, hfile, Bool.not_true, Bool.false_eq_true, if_false, hwhence, hseek]

theorem seek_refused {e : Errno}
    (hlookup : s.table.lookup fd.toNat (.single .fdSeek) = .error e) :
    seek s m fd offset code newOffset = ⟨e, s, m⟩ := by
  simp only [seek, hlookup]

theorem seek_whence {e : Errno} (hlookup : s.table.lookup fd.toNat (.single .fdSeek) = .ok d)
    (hfile : d.stream.isFile) (hwhence : Whence.ofCode code = .error e) :
    seek s m fd offset code newOffset = ⟨e, s, m⟩ := by
  simp only [seek, hlookup, hfile, Bool.not_true, Bool.false_eq_true, if_false, hwhence]

theorem seek_failed {e : Errno} {whence : Whence}
    (hlookup : s.table.lookup fd.toNat (.single .fdSeek) = .ok d) (hfile : d.stream.isFile)
    (hwhence : Whence.ofCode code = .ok whence)
    (hseek : d.stream.seek offset.toInt whence = .error e) :
    seek s m fd offset code newOffset = ⟨e, s, m⟩ := by
  simp only [seek, hlookup, hfile, Bool.not_true, Bool.false_eq_true, if_false, hwhence, hseek]

/-- A seek fails and changes nothing, or it succeeds without moving anything, or a file moves its
cursor. -/
theorem seek_cases (s : Wasi) (m : Memory) (fd : UInt32) (offset : Int64) (code : UInt8)
    (newOffset : UInt32) :
    (∃ e, seek s m fd offset code newOffset = ⟨e, s, m⟩) ∨
      (∃ m', seek s m fd offset code newOffset = ⟨.success, s, m'⟩) ∨
        ∃ d whence stream, s.table.lookup fd.toNat (.single .fdSeek) = .ok d ∧ d.stream.isFile ∧
          Whence.ofCode code = .ok whence ∧ d.stream.seek offset.toInt whence = .ok stream := by
  cases hlookup : s.table.lookup fd.toNat (.single .fdSeek) with
  | error e => exact .inl ⟨e, seek_refused hlookup⟩
  | ok d =>
    by_cases hfile : d.stream.isFile
    · cases hwhence : Whence.ofCode code with
      | error e => exact .inl ⟨e, seek_whence hlookup hfile hwhence⟩
      | ok whence =>
        cases hstream : d.stream.seek offset.toInt whence with
        | error e => exact .inl ⟨e, seek_failed hlookup hfile hwhence hstream⟩
        | ok stream => exact .inr (.inr ⟨d, whence, stream, rfl, hfile, rfl, hstream⟩)
    · exact .inr (.inl ⟨_, by simp only [seek, hlookup, hfile, Bool.not_false, if_true]; rfl⟩)

end Seek

/-! ## Receiving -/

/-- Receiving gets as far as the stream: the descriptor is there, its transfer list is `entries`,
and all buffers are inside the memory. -/
structure Receives (s : Wasi) (m : Memory) (fd iovs iovsLen : UInt32) (d : Descriptor)
    (entries : List Iovec) : Prop where
  lookup : s.table.lookup fd.toNat (.single .fdRead) = .ok d
  list : m.readIovecs iovs.toNat iovsLen = .ok entries
  buffers : m.checkBuffers entries = .ok ()

variable {entries : List Iovec} {stream : Stream} {bytes : Bytes}

theorem receive_refused {e : Errno}
    (hlookup : s.table.lookup fd.toNat (.single .fdRead) = .error e) :
    receive s m fd iovs iovsLen = (.error e, s) := by
  simp only [receive, hlookup, bind, Except.bind]

theorem receive_list_error {e : Errno}
    (hlookup : s.table.lookup fd.toNat (.single .fdRead) = .ok d)
    (hlist : m.readIovecs iovs.toNat iovsLen = .error e) :
    receive s m fd iovs iovsLen = (.error e, s) := by
  simp only [receive, hlookup, hlist, bind, Except.bind]

theorem receive_buffers_error {e : Errno}
    (hlookup : s.table.lookup fd.toNat (.single .fdRead) = .ok d)
    (hlist : m.readIovecs iovs.toNat iovsLen = .ok entries)
    (hbuffers : m.checkBuffers entries = .error e) :
    receive s m fd iovs iovsLen = (.error e, s) := by
  simp only [receive, hlookup, hlist, hbuffers, bind, Except.bind]

theorem Receives.receive_error {e : Errno} (h : Receives s m fd iovs iovsLen d entries)
    (hread : d.stream.read (Iovec.capacity entries) = .error e) :
    receive s m fd iovs iovsLen = (.error e, s) := by
  simp only [receive, h.lookup, h.list, h.buffers, bind, Except.bind, pure, Except.pure, hread]

theorem Receives.scatter_eq (h : Receives s m fd iovs iovsLen d entries)
    (hread : d.stream.read (Iovec.capacity entries) = .ok (.data bytes, stream)) :
    m.scatter entries bytes =
      .ok (bytes.length, m.overlayAll (Memory.spread entries bytes)) :=
  Memory.scatter_eq_ok (Memory.checkBuffers_eq_ok.1 h.buffers) (Stream.length_read_le hread)

/-- A chunk that the stream hands out is spread over the buffers, all of it. -/
theorem Receives.receive_data (h : Receives s m fd iovs iovsLen d entries)
    (hread : d.stream.read (Iovec.capacity entries) = .ok (.data bytes, stream)) :
    receive s m fd iovs iovsLen =
      (.ok ⟨bytes.length, s.setStream fd.toNat stream,
        m.overlayAll (Memory.spread entries bytes)⟩, s.setStream fd.toNat stream) := by
  simp only [receive, h.lookup, h.list, h.buffers, bind, Except.bind, pure, Except.pure, hread,
    h.scatter_eq hread]

theorem Receives.receive_cancelled (h : Receives s m fd iovs iovsLen d entries)
    (hread : d.stream.read (Iovec.capacity entries) = .ok (.cancelled, stream)) :
    receive s m fd iovs iovsLen = (.error .canceled, s.setStream fd.toNat stream) := by
  simp only [receive, h.lookup, h.list, h.buffers, bind, Except.bind, pure, Except.pure, hread]

/-- Everything that receiving can come to. -/
inductive Received (s : Wasi) (m : Memory) (fd iovs iovsLen : UInt32) :
    Except Errno Transfer × Wasi → Prop where
  /-- It fails before the stream is read, or the stream cannot be read. -/
  | refused {e : Errno} (he : e ≠ .success) : Received s m fd iovs iovsLen (.error e, s)
  /-- The stream has nothing to hand out. -/
  | cancelled {d : Descriptor} {entries : List Iovec} {stream : Stream}
      (h : Receives s m fd iovs iovsLen d entries)
      (hread : d.stream.read (Iovec.capacity entries) = .ok (.cancelled, stream)) :
      Received s m fd iovs iovsLen (.error .canceled, s.setStream fd.toNat stream)
  /-- What the stream hands out is spread over the buffers. -/
  | data {d : Descriptor} {entries : List Iovec} {bytes : Bytes} {stream : Stream}
      (h : Receives s m fd iovs iovsLen d entries)
      (hread : d.stream.read (Iovec.capacity entries) = .ok (.data bytes, stream)) :
      Received s m fd iovs iovsLen
        (.ok ⟨bytes.length, s.setStream fd.toNat stream,
          m.overlayAll (Memory.spread entries bytes)⟩, s.setStream fd.toNat stream)

theorem received (s : Wasi) (m : Memory) (fd iovs iovsLen : UInt32) :
    Received s m fd iovs iovsLen (receive s m fd iovs iovsLen) := by
  cases hlookup : s.table.lookup fd.toNat (.single .fdRead) with
  | error e =>
    rw [receive_refused hlookup]
    refine .refused ?_
    rcases Table.lookup_error hlookup with rfl | rfl <;> decide
  | ok d =>
    cases hlist : m.readIovecs iovs.toNat iovsLen with
    | error e =>
      rw [receive_list_error hlookup hlist, Memory.readIovecs_error hlist]
      exact .refused (by decide)
    | ok entries =>
      cases hbuffers : m.checkBuffers entries with
      | error e =>
        rw [receive_buffers_error hlookup hlist hbuffers, Memory.checkBuffers_error hbuffers]
        exact .refused (by decide)
      | ok _ =>
        have h : Receives s m fd iovs iovsLen d entries := ⟨hlookup, hlist, hbuffers⟩
        rcases hread : d.stream.read (Iovec.capacity entries) with e | ⟨bytes | _, stream⟩
        · rw [h.receive_error hread, Stream.read_error hread]
          exact .refused (by decide)
        · exact h.receive_data hread ▸ .data h hread
        · exact h.receive_cancelled hread ▸ .cancelled h hread

/-! ## Sending -/

/-- Sending gets as far as the stream: the descriptor is there, and the buffers of its transfer
list hold `bytes`, the number of which fits a word. -/
structure Sends (s : Wasi) (m : Memory) (fd iovs iovsLen : UInt32) (d : Descriptor)
    (entries : List Iovec) (bytes : Bytes) : Prop where
  lookup : s.table.lookup fd.toNat (.single .fdWrite) = .ok d
  list : m.readIovecs iovs.toNat iovsLen = .ok entries
  gather : m.gather entries = .ok bytes
  fits : bytes.length < 2 ^ 32

variable {lines : List Emission}

theorem Sends.send_eq (h : Sends s m fd iovs iovsLen d entries bytes)
    (hwrite : d.stream.write bytes = .ok (lines, stream)) :
    send s m fd iovs iovsLen =
      .ok ⟨bytes.length, (s.setStream fd.toNat stream).emit lines, m⟩ := by
  have hfits : ¬ UInt32.size ≤ bytes.length := Nat.not_le.2 h.fits
  simp only [send, h.lookup, h.list, h.gather, bind, Except.bind, pure, Except.pure, hfits,
    if_false, hwrite]

theorem send_refused {e : Errno}
    (hlookup : s.table.lookup fd.toNat (.single .fdWrite) = .error e) :
    send s m fd iovs iovsLen = .error e := by
  simp only [send, hlookup, bind, Except.bind]

theorem send_list_error {e : Errno}
    (hlookup : s.table.lookup fd.toNat (.single .fdWrite) = .ok d)
    (hlist : m.readIovecs iovs.toNat iovsLen = .error e) :
    send s m fd iovs iovsLen = .error e := by
  simp only [send, hlookup, hlist, bind, Except.bind]

theorem send_gather_error {e : Errno}
    (hlookup : s.table.lookup fd.toNat (.single .fdWrite) = .ok d)
    (hlist : m.readIovecs iovs.toNat iovsLen = .ok entries)
    (hgather : m.gather entries = .error e) : send s m fd iovs iovsLen = .error e := by
  simp only [send, hlookup, hlist, hgather, bind, Except.bind]

theorem send_overflow (hlookup : s.table.lookup fd.toNat (.single .fdWrite) = .ok d)
    (hlist : m.readIovecs iovs.toNat iovsLen = .ok entries)
    (hgather : m.gather entries = .ok bytes) (hlong : 2 ^ 32 ≤ bytes.length) :
    send s m fd iovs iovsLen = .error .overflow := by
  have hlong' : UInt32.size ≤ bytes.length := hlong
  simp only [send, hlookup, hlist, hgather, bind, Except.bind, hlong', if_true, throw, throwThe,
    MonadExceptOf.throw]

theorem Sends.send_error {e : Errno} (h : Sends s m fd iovs iovsLen d entries bytes)
    (hwrite : d.stream.write bytes = .error e) : send s m fd iovs iovsLen = .error e := by
  have hfits : ¬ UInt32.size ≤ bytes.length := Nat.not_le.2 h.fits
  simp only [send, h.lookup, h.list, h.gather, bind, Except.bind, hfits, if_false, hwrite]

/-- The bytes that a transfer list leads to. -/
def outgoing (m : Memory) (iovs iovsLen : UInt32) : Except Errno Bytes := do
  let entries ← m.readIovecs iovs.toNat iovsLen
  let bytes ← m.gather entries
  if UInt32.size ≤ bytes.length then throw .overflow
  pure bytes

/-- What is sent does not depend on where it is sent. -/
theorem send_eq_outgoing (hlookup : s.table.lookup fd.toNat (.single .fdWrite) = .ok d) :
    send s m fd iovs iovsLen = (outgoing m iovs iovsLen).bind fun bytes =>
      (d.stream.write bytes).map fun (lines, stream) =>
        ⟨bytes.length, (s.setStream fd.toNat stream).emit lines, m⟩ := by
  simp only [send, hlookup, outgoing, bind, Except.bind, pure, Except.pure]
  cases m.readIovecs iovs.toNat iovsLen with
  | error e => rfl
  | ok entries =>
    simp only
    cases m.gather entries with
    | error e => rfl
    | ok bytes =>
      simp only
      split
      · rfl
      · simp only
        cases d.stream.write bytes <;> rfl

/-- Sending fails, or the stream takes all of the bytes. -/
theorem send_cases (s : Wasi) (m : Memory) (fd iovs iovsLen : UInt32) :
    (∃ e, e ≠ .success ∧ send s m fd iovs iovsLen = .error e) ∨
      ∃ d entries bytes lines stream, Sends s m fd iovs iovsLen d entries bytes ∧
        d.stream.write bytes = .ok (lines, stream) := by
  cases hlookup : s.table.lookup fd.toNat (.single .fdWrite) with
  | error e =>
    refine .inl ⟨e, ?_, send_refused hlookup⟩
    rcases Table.lookup_error hlookup with rfl | rfl <;> decide
  | ok d =>
    cases hlist : m.readIovecs iovs.toNat iovsLen with
    | error e =>
      refine .inl ⟨e, ?_, send_list_error hlookup hlist⟩
      rw [Memory.readIovecs_error hlist]
      decide
    | ok entries =>
      cases hgather : m.gather entries with
      | error e =>
        refine .inl ⟨e, ?_, send_gather_error hlookup hlist hgather⟩
        rw [Memory.gather_error hgather]
        decide
      | ok bytes =>
        by_cases hfits : bytes.length < UInt32.size
        · have h : Sends s m fd iovs iovsLen d entries bytes := ⟨hlookup, hlist, hgather, hfits⟩
          rcases hwrite : d.stream.write bytes with e | ⟨lines, stream⟩
          · refine .inl ⟨e, ?_, h.send_error hwrite⟩
            rcases Stream.write_error hwrite with rfl | rfl <;> decide
          · exact .inr ⟨d, entries, bytes, lines, stream, h, hwrite⟩
        · exact .inl ⟨.overflow, by decide,
            send_overflow hlookup hlist hgather (Nat.not_lt.1 hfits)⟩

/-! ## Storing the count -/

variable {out : UInt32} {t : Transfer}

theorem conclude_stored (hcount : t.count < 2 ^ 32) (hout : t.memory.InBounds out.toNat 4) :
    conclude s m out (.ok t) =
      ⟨.success, t.wasi, t.memory.overlay out.toNat (.ofU32 (.ofNat t.count))⟩ := by
  have hfits : t.count < UInt32.size := hcount
  simp only [conclude, hfits, if_true, Memory.writeU32_of_inBounds hout, storing]

/-- A transfer whose count cannot be stored has happened all the same. -/
theorem conclude_unstored (s : Wasi) (m : Memory)
    (h : ¬ t.memory.InBounds out.toNat 4 ∨ 2 ^ 32 ≤ t.count) :
    (conclude s m out (.ok t)).errno ≠ .success ∧ (conclude s m out (.ok t)).wasi = t.wasi ∧
      (conclude s m out (.ok t)).memory = t.memory.writeIfPossible out.toNat (.ofU32 0) := by
  by_cases hcount : t.count < UInt32.size
  · have hout := h.resolve_right (Nat.not_le.2 hcount)
    have hzero : t.memory.writeIfPossible out.toNat (.ofU32 0) = t.memory := by
      rw [Memory.writeIfPossible, Memory.write_of_not_inBounds (by exact hout)]
    have hfault : conclude s m out (.ok t) = ⟨.fault, t.wasi, t.memory⟩ := by
      simp only [conclude, hcount, if_true, Memory.writeU32_of_not_inBounds hout, storing]
    rw [hfault, hzero]
    exact ⟨nofun, rfl, rfl⟩
  · have hoverflow : conclude s m out (.ok t) =
        ⟨.overflow, t.wasi, t.memory.writeIfPossible out.toNat (.ofU32 0)⟩ := by
      simp only [conclude, hcount, if_false]
    rw [hoverflow]
    exact ⟨nofun, rfl, rfl⟩

/-! ## Whole transfers -/

/-- What a read comes to whose addresses are given. -/
theorem run_fdRead (hiovs : iovs ≠ 0) (hnull : out ≠ 0) :
    run s m (.fdRead fd iovs iovsLen out) =
      conclude (receive s m fd iovs iovsLen).2 m out (receive s m fd iovs iovsLen).1 := by
  simp [run, hiovs, hnull]

theorem run_fdWrite (hiovs : iovs ≠ 0) (hnull : out ≠ 0) :
    run s m (.fdWrite fd iovs iovsLen out) =
      conclude s m out (send s m fd iovs iovsLen) := by
  simp [run, hiovs, hnull]

end Syscall

end GuestHost
