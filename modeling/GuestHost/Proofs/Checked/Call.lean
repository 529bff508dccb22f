import GuestHost.Proofs.Checked.Stream
import GuestHost.Proofs.Checked.Strings
import GuestHost.Proofs.Checked.Transfer
import GuestHost.Proofs.Wasi.Footprint

/-!
# Calls, word by word

`call` answers a system call by computing with words: every address comes from the words that the
guest passes and from what is found in its memory, every slice and every copy is checked.
`call_exact` says that this comes to exactly what `Syscall.run` does, without a crash and with every
access exact, if the memory has at most 2³² bytes, the strings fit the words of a guest, and the
files before and after the call can be held.
-/

namespace GuestHost

/-- Every file behind a descriptor can be held. -/
def Wasi.Holdable (s : Wasi) : Prop :=
  ∀ id d, s.table.get? id = some d → d.stream.Holdable

theorem Wasi.Holdable.of_setStream {s : Wasi} {id : Nat} {d : Descriptor} {stream : Stream}
    {lines : List Emission} (hd : s.table.get? id = some d)
    (h : ((s.setStream id stream).emit lines).Holdable) : stream.Holdable :=
  h id (d.withStream stream) (by
    rw [Wasi.emit, Wasi.setStream, Table.get?_setStream, if_pos rfl, hd]
    rfl)

namespace Checked

open Syscall (Result Transfer)
open Wasi (threeArgs)

variable {w : World} {s : Wasi} {m : Memory}

/-- The computation ends with the answer, the state and the memory of `r`. -/
def Answers (p : Checked Errno) (w : World) (r : Result) : Prop :=
  Ends p w (.ok r.errno) ⟨r.wasi, r.memory⟩

/-- The error number of a computation, or success. -/
def toErrno (p : Checked Unit) : Checked Errno := do
  match ← attempt p with
  | .ok () => pure .success
  | .error e => pure e

theorem answers_toErrno {p : Checked Unit} {r : Except Errno Memory}
    (h : Ends p w (r.map fun _ => ()) (stored ⟨s, m⟩ r)) :
    Answers (toErrno p) w (Syscall.storing s m r) := by
  refine h.attempt.bind ?_
  cases r with
  | ok m' => exact ends_pure _ _
  | error e => exact ends_pure _ _

theorem answers_toErrno_handing {p : Checked Unit} {outcome : Except Errno Unit × Memory}
    (h : Ends p w outcome.1 ⟨s, outcome.2⟩) :
    Answers (toErrno p) w (Syscall.handing s outcome) := by
  refine h.attempt.bind ?_
  rcases outcome with ⟨e | _, m'⟩ <;> exact ends_pure _ _

theorem stored_write (s : Wasi) (m : Memory) (start : Nat) (bs : Bytes) :
    stored ⟨s, m⟩ (m.write start bs) = ⟨s, m.writeIfPossible start bs⟩ := by
  rw [Memory.writeIfPossible]
  cases m.write start bs <;> rfl

/-! ## Descriptors -/

/-- Finds a descriptor that has the given rights. -/
def descriptor (fd : UInt32) (base : Rights := .none) : Checked Descriptor := do
  let w ← get
  ofExcept (w.wasi.table.lookup fd.toNat base)

theorem ends_descriptor (fd : UInt32) (base : Rights) :
    Ends (descriptor fd base) w (w.wasi.table.lookup fd.toNat base) w :=
  (ends_get w).bind (ends_ofExcept rfl w)

/-- Copies bytes into a record at an offset. -/
def put (record : Bytes) (offset : Nat) (bs : Bytes) : Checked Bytes := do
  let stop ← addLength offset bs.length
  replace record offset stop bs

/-- The record that describes a descriptor, field by field. -/
def fdstat (d : Descriptor) : Checked Bytes := do
  let record ← put (List.replicate Syscall.fdstatSize 0) Syscall.fdstatFiletypeOffset
    (.ofNat 2 d.filetype.code)
  let record ← put record Syscall.fdstatFlagsOffset (.ofNat 2 0)
  let record ← put record Syscall.fdstatBaseOffset (.ofU64 d.base.bits)
  put record Syscall.fdstatInheritingOffset (.ofU64 d.inheriting.bits)

/-- A field is replaced where it stands. -/
theorem ends_put {record before field after bs : Bytes}
    (hrecord : record = before ++ (field ++ after)) (hlength : bs.length = field.length)
    (hfits : record.length < 2 ^ 64) (w : World) :
    Ends (put record before.length bs) w (.ok (before ++ (bs ++ after))) w := by
  subst hrecord
  simp only [List.length_append] at hfits
  have hreplace := ends_replace (before ++ (field ++ after)) bs before.length
    (by simp only [List.length_append]; omega) w
  have hdrop : (before ++ (field ++ after)).drop (before.length + bs.length) = after := by
    rw [hlength, ← List.drop_drop, List.drop_left, List.drop_left]
  rw [List.take_left, hdrop, List.append_assoc] at hreplace
  exact (ends_addLength (by omega) w).bind hreplace

/-- The fields are put one after the other into a record of zeros. -/
theorem ends_fdstat (d : Descriptor) : Ends (fdstat d) w (.ok (Syscall.fdstat d)) w := by
  have htype : (Bytes.ofNat 2 d.filetype.code).length = 2 := Bytes.length_ofNat 2 _
  have hflags : (Bytes.ofNat 2 0).length = 2 := Bytes.length_ofNat 2 _
  have hbase : (Bytes.ofU64 d.base.bits).length = 8 := Bytes.length_ofNat 8 _
  have hinheriting : (Bytes.ofU64 d.inheriting.bits).length = 8 := Bytes.length_ofNat 8 _
  have hgap : Bytes.ofNat 4 0 = List.replicate 4 0 := rfl
  unfold fdstat Syscall.fdstat
  rw [hgap]
  generalize Bytes.ofNat 2 d.filetype.code = type at htype
  generalize Bytes.ofNat 2 0 = flags at hflags
  generalize Bytes.ofU64 d.base.bits = base at hbase
  generalize Bytes.ofU64 d.inheriting.bits = inheriting at hinheriting
  have hfirst : Ends (put (List.replicate 24 0) 0 type) w (.ok (type ++ List.replicate 22 0)) w :=
    @ends_put _ [] (List.replicate 2 0) (List.replicate 22 0) _ rfl htype (by decide) w
  have hsecond := @ends_put (type ++ List.replicate 22 0) type (List.replicate 2 0)
    (List.replicate 20 0) flags rfl hflags (by simp [htype]) w
  have hthird := @ends_put (type ++ (flags ++ List.replicate 20 0))
    (type ++ (flags ++ List.replicate 4 0)) (List.replicate 8 0) (List.replicate 8 0) base
    (by simp) hbase (by simp [htype, hflags]) w
  have hfourth := @ends_put (type ++ (flags ++ List.replicate 4 0) ++ (base ++ List.replicate 8 0))
    (type ++ (flags ++ List.replicate 4 0) ++ base) (List.replicate 8 0) [] inheriting
    (by simp) hinheriting (by simp [htype, hflags, hbase]) w
  simp only [List.length_append, List.length_replicate, htype, hflags, hbase]
    at hsecond hthird hfourth
  have hrecord : type ++ flags ++ List.replicate 4 0 ++ base ++ inheriting =
      type ++ (flags ++ List.replicate 4 0) ++ base ++ (inheriting ++ []) := by simp
  rw [hrecord]
  exact hfirst.bind (hsecond.bind (hthird.bind hfourth))

/-- Stores the record of a descriptor. -/
def fdFdstatGet (fd stat : UInt32) : Checked Errno :=
  if stat = 0 then pure .inval
  else toErrno do
    let d ← descriptor fd
    let record ← fdstat d
    write stat record

theorem answers_fdFdstatGet (fd stat : UInt32) (hm : m.size ≤ 2 ^ 32) :
    Answers (fdFdstatGet fd stat) ⟨s, m⟩ (Syscall.run s m (.fdFdstatGet fd stat)) := by
  rw [fdFdstatGet, Syscall.run]
  by_cases hnull : stat = 0
  · rw [if_pos hnull, if_pos hnull]
    exact ends_pure _ _
  · rw [if_neg hnull, if_neg hnull]
    have hd := @ends_descriptor ⟨s, m⟩ fd .none
    cases hlookup : s.table.lookup fd.toNat with
    | error e =>
      rw [hlookup] at hd
      exact answers_toErrno (r := .error e) hd.bind_error
    | ok d =>
      rw [hlookup] at hd
      exact answers_toErrno <|
        hd.bind ((ends_fdstat d).bind (ends_write_stored stat (Syscall.fdstat d) hm))

/-! ## Positions -/

section Position

variable (fd newOffset : UInt32) (offset : Int64) (code : UInt8)

/-- Stores where the cursor of a descriptor is. -/
def fdTell : Checked Errno :=
  if newOffset = 0 then pure .inval
  else toErrno do
    let d ← descriptor fd (.single .fdTell)
    writeU64 newOffset (.ofNat d.stream.tell)

/-- Stores a position, unless there is nowhere to store it. -/
def storePosition (position : UInt64) : Checked Unit :=
  if newOffset = 0 then pure () else writeU64 newOffset position

/-- Moves the cursor of a file and stores where it is.  What is not a file has its position at 0. -/
def seek : Checked Unit := do
  let d ← descriptor fd (.single .fdSeek)
  if d.stream.isFile then
    let whence ← ofExcept (Whence.ofCode code)
    let stream ← ofExcept (d.stream.seek offset.toInt whence)
    modify fun w => { w with wasi := w.wasi.setStream fd.toNat stream }
    storePosition newOffset (.ofNat stream.tell)
  else
    let _ ← attempt (storePosition newOffset 0)
    pure ()

theorem answers_fdTell (hm : m.size ≤ 2 ^ 32) :
    Answers (fdTell fd newOffset) ⟨s, m⟩ (Syscall.run s m (.fdTell fd newOffset)) := by
  rw [fdTell, Syscall.run, Syscall.tell]
  by_cases hnull : newOffset = 0
  · rw [if_pos hnull, if_pos hnull]
    exact ends_pure _ _
  · rw [if_neg hnull, if_neg hnull]
    have hd := @ends_descriptor ⟨s, m⟩ fd (.single .fdTell)
    cases hlookup : s.table.lookup fd.toNat (.single .fdTell) with
    | error e =>
      rw [hlookup] at hd
      exact answers_toErrno (r := .error e) hd.bind_error
    | ok d =>
      rw [hlookup] at hd
      exact answers_toErrno <| hd.bind (ends_write_stored newOffset _ hm)

/-- The memory after a position was stored. -/
def positioned (m : Memory) (position : UInt64) : Except Errno Memory :=
  if newOffset = 0 then .ok m else m.writeU64 newOffset.toNat position

theorem ends_storePosition (position : UInt64) (hw : w.memory.size ≤ 2 ^ 32) :
    Ends (storePosition newOffset position) w
      ((positioned newOffset w.memory position).map fun _ => ())
      (stored w (positioned newOffset w.memory position)) := by
  rw [storePosition, positioned]
  by_cases hnull : newOffset = 0
  · rw [if_pos hnull, if_pos hnull]
    exact ends_pure _ w
  · rw [if_neg hnull, if_neg hnull]
    exact ends_write_stored newOffset _ hw

/-- A stream without a position is content if the position is not stored. -/
theorem seek_standard {d : Descriptor}
    (hlookup : s.table.lookup fd.toNat (.single .fdSeek) = .ok d) (hfile : ¬ d.stream.isFile) :
    ⟨.success, (stored ⟨s, m⟩ (positioned newOffset m 0)).wasi,
        (stored ⟨s, m⟩ (positioned newOffset m 0)).memory⟩ =
      Syscall.seek s m fd offset code newOffset := by
  simp only [Syscall.seek, hlookup, hfile, Bool.not_false, if_true, positioned]
  by_cases hnull : newOffset = 0
  · rw [if_pos hnull, if_pos hnull, stored]
  · rw [if_neg hnull, if_neg hnull, Memory.writeU64, stored_write]

theorem answers_seek (hm : m.size ≤ 2 ^ 32) :
    Answers (toErrno (seek fd newOffset offset code)) ⟨s, m⟩
      (Syscall.seek s m fd offset code newOffset) := by
  have hd := @ends_descriptor ⟨s, m⟩ fd (.single .fdSeek)
  cases hlookup : s.table.lookup fd.toNat (.single .fdSeek) with
  | error e =>
    rw [hlookup] at hd
    rw [Syscall.seek_refused hlookup]
    exact answers_toErrno (r := .error e) hd.bind_error
  | ok d =>
    rw [hlookup] at hd
    by_cases hfile : d.stream.isFile
    · cases hwhence : Whence.ofCode code with
      | error e =>
        rw [Syscall.seek_whence hlookup hfile hwhence]
        refine answers_toErrno (r := .error e) (hd.bind ?_)
        rw [if_pos hfile]
        exact (ends_ofExcept hwhence _).bind_error
      | ok whence =>
        have hcode := ends_ofExcept hwhence ⟨s, m⟩
        cases hseek : d.stream.seek offset.toInt whence with
        | error e =>
          rw [Syscall.seek_failed hlookup hfile hwhence hseek]
          refine answers_toErrno (r := .error e) (hd.bind ?_)
          rw [if_pos hfile]
          exact hcode.bind (ends_ofExcept hseek _).bind_error
        | ok stream =>
          have hstore := @ends_storePosition ⟨s.setStream fd.toNat stream, m⟩ newOffset
            (.ofNat stream.tell) hm
          have hanswer : Syscall.seek s m fd offset code newOffset =
              Syscall.storing (s.setStream fd.toNat stream) m
                (positioned newOffset m (.ofNat stream.tell)) := by
            rw [Syscall.seek_moved hlookup hfile hwhence hseek, positioned]
            split <;> rfl
          rw [hanswer]
          refine answers_toErrno (hd.bind ?_)
          rw [if_pos hfile]
          exact hcode.bind <| (ends_ofExcept hseek _).bind <| (ends_modify rfl).bind hstore
    · have hstore := (@ends_storePosition ⟨s, m⟩ newOffset 0 hm).attempt
      rw [← seek_standard fd newOffset offset code hlookup hfile]
      refine Ends.bind (Ends.attempt (r := .ok ()) (hd.bind ?_)) (ends_pure _ _)
      rw [if_neg hfile]
      exact hstore.bind (ends_pure _ _)

end Position

/-! ## Transfers -/

section Transfers

variable {fd iovs iovsLen out : UInt32} {d : Descriptor}

/-- A number of bytes as a word. -/
def ioCount (count : Nat) : Except Errno UInt32 :=
  if count < UInt32.size then .ok (.ofNat count) else .error .overflow

/-- Spreads what a stream has to give over the buffers of a transfer list, and counts it. -/
def receive (fd iovs iovsLen : UInt32) : Checked Nat := do
  let d ← descriptor fd (.single .fdRead)
  let entries ← readIovecs iovs iovsLen
  let capacity ← checkBuffers entries 0
  let (delivery, stream) ← readStream capacity d.stream
  modify fun w => { w with wasi := w.wasi.setStream fd.toNat stream }
  match delivery with
  | .data bytes => scatter entries bytes
  | .cancelled => fail .canceled

/-- Hands the bytes of the buffers of a transfer list to a stream, and counts them. -/
def send (fd iovs iovsLen : UInt32) : Checked Nat := do
  let d ← descriptor fd (.single .fdWrite)
  let entries ← readIovecs iovs iovsLen
  let bytes ← gather entries
  let _ ← ofExcept (ioCount bytes.length)
  let (lines, stream) ← writeStream bytes d.stream
  modify fun w => { w with wasi := (w.wasi.setStream fd.toNat stream).emit lines }
  pure bytes.length

/-- Stores the count of a transfer, or 0 if it failed. -/
def conclude (out : UInt32) (result : Except Errno Nat) : Checked Errno :=
  match result.bind ioCount with
  | .ok count => toErrno (writeU32 out count)
  | .error e => do
    let _ ← attempt (writeU32 out 0)
    pure e

/-- The world after a transfer, which leaves it as it was if it fails. -/
def after (s : Wasi) (m : Memory) : Except Errno Transfer → World
  | .ok t => ⟨t.wasi, t.memory⟩
  | .error _ => ⟨s, m⟩

/-- Receiving, once it gets as far as the stream. -/
theorem ends_receive_stream {entries : List Iovec}
    (h : Syscall.Receives s m fd iovs iovsLen d entries) (hm : m.size ≤ 2 ^ 32) (hiovs : iovs ≠ 0)
    (hfiles : s.Holdable) :
    Ends (receive fd iovs iovsLen) ⟨s, m⟩
      ((Syscall.receive s m fd iovs iovsLen).1.map Transfer.count)
      (after (Syscall.receive s m fd iovs iovsLen).2 m
        (Syscall.receive s m fd iovs iovsLen).1) := by
  have hd := @ends_descriptor ⟨s, m⟩ fd (.single .fdRead)
  have hentries := @ends_readIovecs ⟨s, m⟩ iovs iovsLen hm hiovs
  have hcheck := ends_checkBuffers_of_readIovecs (w := ⟨s, m⟩) hm h.list
  have hstream := @ends_readStream ⟨s, m⟩ d.stream (Iovec.capacity entries)
    (hfiles _ _ (Table.get?_of_lookup h.lookup))
  rw [h.lookup] at hd
  rw [h.list] at hentries
  rw [h.buffers] at hcheck
  rcases hread : d.stream.read (Iovec.capacity entries) with e | ⟨bytes | _, stream⟩
  · rw [hread] at hstream
    rw [h.receive_error hread]
    exact hd.bind (hentries.bind (hcheck.bind hstream.bind_error))
  · have hle : bytes.length ≤ Iovec.capacity entries := Stream.length_read_le hread
    have hfits := hle.trans (capacity_le_of_readIovecs h.list)
    have hscatter := @ends_scatter ⟨s.setStream fd.toNat stream, m⟩ entries bytes
      (Memory.checkBuffers_eq_ok.1 h.buffers) hle (by unfold File.largest at hfits; omega)
    rw [hread] at hstream
    rw [h.receive_data hread]
    exact hd.bind <| hentries.bind <| hcheck.bind <| hstream.bind <|
      (ends_modify rfl).bind hscatter
  · rw [hread] at hstream
    rw [h.receive_cancelled hread]
    exact hd.bind <| hentries.bind <| hcheck.bind <| hstream.bind <|
      (ends_modify rfl).bind (ends_fail _ _)

theorem ends_receive (fd : UInt32) (hm : m.size ≤ 2 ^ 32) (hiovs : iovs ≠ 0)
    (hfiles : s.Holdable) :
    Ends (receive fd iovs iovsLen) ⟨s, m⟩
      ((Syscall.receive s m fd iovs iovsLen).1.map Transfer.count)
      (after (Syscall.receive s m fd iovs iovsLen).2 m
        (Syscall.receive s m fd iovs iovsLen).1) := by
  have hd := @ends_descriptor ⟨s, m⟩ fd (.single .fdRead)
  have hentries := @ends_readIovecs ⟨s, m⟩ iovs iovsLen hm hiovs
  cases hlookup : s.table.lookup fd.toNat (.single .fdRead) with
  | error e =>
    rw [hlookup] at hd
    rw [Syscall.receive_refused hlookup]
    exact hd.bind_error
  | ok d =>
    rw [hlookup] at hd
    cases hlist : m.readIovecs iovs.toNat iovsLen with
    | error e =>
      rw [hlist] at hentries
      rw [Syscall.receive_list_error hlookup hlist]
      exact hd.bind hentries.bind_error
    | ok entries =>
      cases hbuffers : m.checkBuffers entries with
      | error e =>
        have hcheck := ends_checkBuffers_of_readIovecs (w := ⟨s, m⟩) hm hlist
        rw [hlist] at hentries
        rw [hbuffers] at hcheck
        rw [Syscall.receive_buffers_error hlookup hlist hbuffers]
        exact hd.bind (hentries.bind hcheck.bind_error)
      | ok _ => exact ends_receive_stream ⟨hlookup, hlist, hbuffers⟩ hm hiovs hfiles

/-- Sending, once it gets as far as the stream. -/
theorem ends_send_stream {entries : List Iovec} {bytes : Bytes}
    (h : Syscall.Sends s m fd iovs iovsLen d entries bytes) (hm : m.size ≤ 2 ^ 32)
    (hiovs : iovs ≠ 0)
    (hafter : ∀ t, Syscall.send s m fd iovs iovsLen = .ok t → t.wasi.Holdable) :
    Ends (send fd iovs iovsLen) ⟨s, m⟩
      ((Syscall.send s m fd iovs iovsLen).map Transfer.count)
      (after s m (Syscall.send s m fd iovs iovsLen)) := by
  have hd := @ends_descriptor ⟨s, m⟩ fd (.single .fdWrite)
  have hentries := @ends_readIovecs ⟨s, m⟩ iovs iovsLen hm hiovs
  have hgathered := @ends_gather ⟨s, m⟩ entries hm (capacity_le_of_readIovecs h.list)
  have hcount : ioCount bytes.length = .ok (.ofNat bytes.length) := if_pos h.fits
  have hstream := @ends_writeStream ⟨s, m⟩ d.stream bytes fun lines stream hwrite =>
    (hafter _ (h.send_eq hwrite)).of_setStream (Table.get?_of_lookup h.lookup)
  rw [h.lookup] at hd
  rw [h.list] at hentries
  rw [h.gather] at hgathered
  rcases hwrite : d.stream.write bytes with e | ⟨lines, stream⟩
  · rw [hwrite] at hstream
    rw [h.send_error hwrite]
    exact hd.bind <| hentries.bind <| hgathered.bind <|
      (ends_ofExcept hcount _).bind hstream.bind_error
  · rw [hwrite] at hstream
    rw [h.send_eq hwrite]
    exact hd.bind <| hentries.bind <| hgathered.bind <|
      (ends_ofExcept hcount _).bind <| hstream.bind <| (ends_modify rfl).bind (ends_pure _ _)

theorem ends_send (fd : UInt32) (hm : m.size ≤ 2 ^ 32) (hiovs : iovs ≠ 0)
    (hafter : ∀ t, Syscall.send s m fd iovs iovsLen = .ok t → t.wasi.Holdable) :
    Ends (send fd iovs iovsLen) ⟨s, m⟩
      ((Syscall.send s m fd iovs iovsLen).map Transfer.count)
      (after s m (Syscall.send s m fd iovs iovsLen)) := by
  have hd := @ends_descriptor ⟨s, m⟩ fd (.single .fdWrite)
  have hentries := @ends_readIovecs ⟨s, m⟩ iovs iovsLen hm hiovs
  cases hlookup : s.table.lookup fd.toNat (.single .fdWrite) with
  | error e =>
    rw [hlookup] at hd
    rw [Syscall.send_refused hlookup]
    exact hd.bind_error
  | ok d =>
    rw [hlookup] at hd
    cases hlist : m.readIovecs iovs.toNat iovsLen with
    | error e =>
      rw [hlist] at hentries
      rw [Syscall.send_list_error hlookup hlist]
      exact hd.bind hentries.bind_error
    | ok entries =>
      have hgathered := @ends_gather ⟨s, m⟩ entries hm (capacity_le_of_readIovecs hlist)
      rw [hlist] at hentries
      cases hgather : m.gather entries with
      | error e =>
        rw [hgather] at hgathered
        rw [Syscall.send_gather_error hlookup hlist hgather]
        exact hd.bind (hentries.bind hgathered.bind_error)
      | ok bytes =>
        by_cases hfits : bytes.length < UInt32.size
        · exact ends_send_stream ⟨hlookup, hlist, hgather, hfits⟩ hm hiovs hafter
        · have hcount : ioCount bytes.length = .error .overflow := if_neg hfits
          rw [hgather] at hgathered
          rw [Syscall.send_overflow hlookup hlist hgather (Nat.not_lt.1 hfits)]
          exact hd.bind <| hentries.bind <| hgathered.bind (ends_ofExcept hcount _).bind_error

theorem answers_conclude (out : UInt32) (transfer : Except Errno Transfer)
    (hm : (after s m transfer).memory.size ≤ 2 ^ 32) :
    Answers (conclude out (transfer.map Transfer.count)) (after s m transfer)
      (Syscall.conclude s m out transfer) := by
  -- Where the count cannot be a word, 0 is written instead and the outcome is dropped.
  have hzero (s : Wasi) (m : Memory) (hm : m.size ≤ 2 ^ 32) :=
    (@ends_write_stored ⟨s, m⟩ out (.ofU32 0) hm).attempt
  cases transfer with
  | error e =>
    have hwrite := hzero s m hm
    rw [stored_write] at hwrite
    exact hwrite.bind (ends_pure _ _)
  | ok t =>
    have hanswer : Except.map Transfer.count (.ok t) = (.ok t.count : Except Errno Nat) := rfl
    rw [hanswer]
    by_cases hcount : t.count < UInt32.size
    · have hword : (Except.ok t.count).bind ioCount = .ok (.ofNat t.count) := if_pos hcount
      rw [Syscall.conclude, if_pos hcount, conclude, hword]
      exact answers_toErrno (ends_write_stored out _ hm)
    · have hword : (Except.ok t.count).bind ioCount = .error .overflow := if_neg hcount
      have hwrite := hzero t.wasi t.memory hm
      rw [stored_write] at hwrite
      rw [Syscall.conclude, if_neg hcount, conclude, hword]
      exact hwrite.bind (ends_pure _ _)

end Transfers

/-! ## Calls -/

/-- Answers a system call. -/
def call : Syscall → Checked Errno
  | .argsSizesGet argc bufSize => do
    let w ← get
    toErrno (storeSizes w.wasi.args argc bufSize)
  | .argsGet argv buf => do
    let w ← get
    toErrno (store w.wasi.args argv buf)
  | .environSizesGet count bufSize => do
    let w ← get
    toErrno (storeSizes w.wasi.env count bufSize)
  | .environGet environ buf => do
    let w ← get
    toErrno (store w.wasi.env environ buf)
  | .fdClose _ => pure .success
  | .fdFdstatGet fd stat => fdFdstatGet fd stat
  | .fdPrestatGet _ _ | .fdPrestatDirName _ _ _ => pure .badf
  | .fdSeek fd offset whence newOffset => toErrno (seek fd newOffset offset whence)
  | .fdTell fd offset => fdTell fd offset
  | .fdRead fd iovs iovsLen nread =>
    if iovs = 0 || nread = 0 then pure .inval
    else do
      let result ← attempt (receive fd iovs iovsLen)
      conclude nread result
  | .fdWrite fd iovs iovsLen nwritten =>
    if iovs = 0 || nwritten = 0 then pure .inval
    else do
      let result ← attempt (send fd iovs iovsLen)
      conclude nwritten result

theorem answers_call (c : Syscall) (hm : m.size ≤ 2 ^ 32)
    (hargs : StringBlock.Fits s.args.entries) (henv : StringBlock.Fits s.env.entries)
    (hfiles : s.Holdable) (hafter : (Syscall.run s m c).wasi.Holdable) :
    Answers (call c) ⟨s, m⟩ (Syscall.run s m c) := by
  have hget := ends_get ⟨s, m⟩
  cases c with
  | argsSizesGet x y => exact hget.bind (answers_toErrno (ends_storeSizes s.args x y hm))
  | argsGet x y => exact hget.bind (answers_toErrno_handing (ends_store x y hargs hm))
  | environSizesGet x y => exact hget.bind (answers_toErrno (ends_storeSizes s.env x y hm))
  | environGet x y => exact hget.bind (answers_toErrno_handing (ends_store x y henv hm))
  | fdClose fd => exact ends_pure _ _
  | fdFdstatGet fd stat => exact answers_fdFdstatGet fd stat hm
  | fdPrestatGet fd prestat => exact ends_pure _ _
  | fdPrestatDirName fd path pathLen => exact ends_pure _ _
  | fdSeek fd offset whence newOffset => exact answers_seek fd newOffset offset whence hm
  | fdTell fd offset => exact answers_fdTell fd offset hm
  | fdRead fd iovs iovsLen out =>
    rw [call, Syscall.run]
    by_cases hnull : (iovs = 0 || out = 0) = true
    · rw [if_pos hnull, if_pos hnull]
      exact ends_pure _ _
    · have hreceive := @ends_receive s m iovs iovsLen fd hm (fun h => hnull (by simp [h])) hfiles
      rw [if_neg hnull, if_neg hnull]
      exact hreceive.attempt.bind (answers_conclude out _ (hreceive.size_le hm))
  | fdWrite fd iovs iovsLen out =>
    rw [call]
    rw [Syscall.run] at hafter ⊢
    by_cases hnull : (iovs = 0 || out = 0) = true
    · rw [if_pos hnull, if_pos hnull]
      exact ends_pure _ _
    · rw [if_neg hnull] at hafter
      have hsend := @ends_send s m iovs iovsLen fd hm (fun h => hnull (by simp [h])) fun t ht => by
        rwa [ht, Syscall.conclude_wasi] at hafter
      rw [if_neg hnull, if_neg hnull]
      exact hsend.attempt.bind (answers_conclude out _ (hsend.size_le hm))

/-- A call that is answered with words does what it does with exact numbers: it does not crash, so
no sum and no product wraps around, every slice is in range and every copy is between runs of one
length; and each of its accesses fails exactly if its end is past the end of the memory. -/
theorem call_exact (s : Wasi) (m : Memory) (c : Syscall) (hm : m.size ≤ 2 ^ 32)
    (hargs : StringBlock.Fits s.args.entries) (henv : StringBlock.Fits s.env.entries)
    (hfiles : s.Holdable) (hafter : (Syscall.run s m c).wasi.Holdable) :
    ∃ accesses, call c ⟨⟨s, m⟩, []⟩ = .ok (.ok (Syscall.run s m c).errno,
        ⟨⟨(Syscall.run s m c).wasi, (Syscall.run s m c).memory⟩, accesses⟩) ∧
      ∀ a ∈ accesses, a.Exact m :=
  (answers_call c hm hargs henv hfiles hafter).run []

/-- The call that stores them as the last bytes of the largest memory. -/
def argsAtTop : Syscall := .argsGet 0xFFFFFFEE 0xFFFFFFFA

theorem call_exact_argsAtTop :
    (Memory.blank (2 ^ 32)).size = 2 ^ 32 ∧ StringBlock.Fits threeArgs.args.entries ∧
      StringBlock.Fits threeArgs.env.entries ∧ threeArgs.Holdable ∧
      (Syscall.run threeArgs (.blank (2 ^ 32)) argsAtTop).wasi = threeArgs ∧
      (Syscall.run threeArgs (.blank (2 ^ 32)) argsAtTop).errno = .success ∧
      ∃ accesses, call argsAtTop ⟨⟨threeArgs, .blank (2 ^ 32)⟩, []⟩ =
          .ok (.ok (Syscall.run threeArgs (.blank (2 ^ 32)) argsAtTop).errno,
            ⟨⟨(Syscall.run threeArgs (.blank (2 ^ 32)) argsAtTop).wasi,
              (Syscall.run threeArgs (.blank (2 ^ 32)) argsAtTop).memory⟩, accesses⟩) ∧
        ∀ a ∈ accesses, a.Exact (.blank (2 ^ 32)) := by
  have hsize : (Memory.blank (2 ^ 32)).size = 2 ^ 32 := Memory.size_zeros _
  have hfits : StringBlock.Fits threeArgs.args.entries := ⟨by decide, by decide⟩
  have hnone : StringBlock.Fits threeArgs.env.entries := ⟨by decide, by decide⟩
  have hfiles : threeArgs.Holdable := fun id d hd => by
    simp [threeArgs, Table.get?, Table.empty] at hd
  have hwasi : (Syscall.run threeArgs (.blank (2 ^ 32)) argsAtTop).wasi = threeArgs :=
    Syscall.handing_wasi _ _
  have hroom : (Memory.blank (2 ^ 32)).InBounds (0xFFFFFFEE : UInt32).toNat
        (4 * threeArgs.args.entries.length) ∧
      (Memory.blank (2 ^ 32)).InBounds (0xFFFFFFFA : UInt32).toNat
        (StringBlock.room threeArgs.args.entries) :=
    ⟨Memory.inBounds_blank (by decide), Memory.inBounds_blank (by decide)⟩
  have hsuccess : (Syscall.run threeArgs (.blank (2 ^ 32)) argsAtTop).errno = .success := by
    rw [argsAtTop, Syscall.run, StringBlock.store_eq (by decide) (by decide) _ hfits hsize.le,
      if_pos hroom]
    rfl
  exact ⟨hsize, hfits, hnone, hfiles, hwasi, hsuccess,
    call_exact threeArgs (.blank (2 ^ 32)) argsAtTop hsize.le hfits hnone hfiles
      (hwasi.symm ▸ hfiles)⟩

end Checked

end GuestHost
