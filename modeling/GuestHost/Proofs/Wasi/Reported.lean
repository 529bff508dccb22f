import GuestHost.Proofs.Table.Standards
import GuestHost.Proofs.Wasi.Guest
import Mathlib.Data.Nat.Bitwise

/-!
# What a guest is told about its rights

A guest can ask for the record of a descriptor.  The record has the filetype and the two masks with
which the descriptor was inserted, all 64 bits of them, and what it says is what holds: a call that
needs a right is refused for want of it exactly if the bit of the right is not set in the reported
mask, at any later time and whatever else is wrong with the call.  `reported_enforced` says so for
every descriptor of every state that a host and its guest can reach together.

A host step may insert descriptors, a guest step may not, and neither changes anything of a
descriptor but its stream, `lists_final`.  That the right is looked at before anything else is
`Syscall.run_notcapable_iff`.
-/

namespace GuestHost

/-- A mask contains a right if the bit of the right is set. -/
theorem Rights.contains_single (a : Rights) (r : Right) :
    a.contains (single r) = a.bits.toNat.testBit r.bit := by
  have hsingle : (single r).bits.toNat = 2 ^ r.bit := by cases r <;> rfl
  have hpos : 0 < 2 ^ r.bit := Nat.two_pow_pos r.bit
  have hword : a.contains (single r) =
      decide ((a.bits &&& (single r).bits).toNat = (single r).bits.toNat) := by
    rw [Bool.eq_iff_iff, decide_eq_true_iff, UInt64.toNat_inj]
    exact beq_iff_eq
  rw [hword, UInt64.toNat_and, hsingle, Nat.and_two_pow]
  cases a.bits.toNat.testBit r.bit with
  | true => simp
  | false => simpa using hpos.ne

/-! ## The right comes first -/

namespace Table

variable {t : Table} {id : Nat} {d : Descriptor}

/-- What the use of a descriptor comes to that needs one right. -/
theorem lookup_single (hd : t.get? id = some d) (r : Right) :
    t.lookup id (.single r) =
      if d.base.bits.toNat.testBit r.bit then .ok d else .error .notcapable := by
  simp only [lookup, hd, Descriptor.allows, Rights.contains_none, Bool.and_true,
    Rights.contains_single]

end Table

theorem Whence.ofCode_error {code : UInt8} {e : Errno} (h : ofCode code = .error e) :
    e = .inval := by
  unfold ofCode at h
  split at h
  · cases h
  · split at h
    · cases h
    · split at h
      · cases h
      · exact (Except.error.inj h).symm

theorem Stream.seek_error {stream : Stream} {offset : Int} {whence : Whence} {e : Errno}
    (h : stream.seek offset whence = .error e) : e = .inval ∨ e = .overflow := by
  cases stream with
  | input i => cases h
  | output o => cases h
  | file f =>
    simp only [seek, File.seek] at h
    split at h
    · split at h
      · exact .inl (Except.error.inj h).symm
      · cases h
    · exact .inr (Except.error.inj h).symm

theorem Memory.write_error {m : Memory} {start : Nat} {bs : Bytes} {e : Errno}
    (h : m.write start bs = .error e) : e = .fault := by
  unfold write at h
  split at h
  · cases h
  · exact (Except.error.inj h).symm

namespace Syscall

variable {s : Wasi} {m : Memory} {d : Descriptor} {fd iovs iovsLen out : UInt32}

/-- The right that a call needs on the descriptor that it uses. -/
def right? : Syscall → Option Right
  | fdSeek _ _ _ _ => some .fdSeek
  | fdTell _ _ => some .fdTell
  | fdRead _ _ _ _ => some .fdRead
  | fdWrite _ _ _ _ => some .fdWrite
  | argsSizesGet _ _ | argsGet _ _ | environSizesGet _ _ | environGet _ _ | fdClose _
  | fdFdstatGet _ _ | fdPrestatGet _ _ | fdPrestatDirName _ _ _ => none

/-- Of the addresses that a call cannot do without, none is null. -/
def Addressed : Syscall → Prop
  | fdTell _ offset => offset ≠ 0
  | fdRead _ iovs _ nread => iovs ≠ 0 ∧ nread ≠ 0
  | fdWrite _ iovs _ nwritten => iovs ≠ 0 ∧ nwritten ≠ 0
  | _ => True

theorem storing_write_errno_ne (s : Wasi) (m m' : Memory) (start : Nat) (bs : Bytes) :
    (storing s m (m'.write start bs)).errno ≠ .notcapable := by
  cases hwrite : m'.write start bs with
  | ok m'' => simp [storing]
  | error e => simp [storing, Memory.write_error hwrite]

theorem conclude_errno (s : Wasi) (m : Memory) (out : UInt32) (outcome : Except Errno Transfer) :
    (conclude s m out outcome).errno = .notcapable ↔ outcome = .error .notcapable := by
  cases outcome with
  | error e => exact ⟨congrArg Except.error, Except.error.inj⟩
  | ok t =>
    refine ⟨fun h => ?_, by simp⟩
    by_cases hcount : t.count < UInt32.size
    · simp only [conclude, hcount, if_true] at h
      exact absurd h (storing_write_errno_ne _ _ _ _ _)
    · simp only [conclude, hcount, if_false] at h
      cases h

/-- Once the right was found, receiving fails for other reasons. -/
theorem receive_ne_notcapable (hlookup : s.table.lookup fd.toNat (.single .fdRead) = .ok d) :
    (receive s m fd iovs iovsLen).1 ≠ .error .notcapable := by
  cases hlist : m.readIovecs iovs.toNat iovsLen with
  | error e =>
    rw [receive_list_error hlookup hlist, Memory.readIovecs_error hlist]
    simp
  | ok entries =>
    cases hbuffers : m.checkBuffers entries with
    | error e =>
      rw [receive_buffers_error hlookup hlist hbuffers, Memory.checkBuffers_error hbuffers]
      simp
    | ok _ =>
      have h : Receives s m fd iovs iovsLen d entries := ⟨hlookup, hlist, hbuffers⟩
      rcases hread : d.stream.read (Iovec.capacity entries) with e | ⟨bytes | _, stream⟩
      · rw [h.receive_error hread, Stream.read_error hread]
        simp
      · rw [h.receive_data hread]
        simp
      · rw [h.receive_cancelled hread]
        simp

/-- Once the right was found, sending fails for other reasons. -/
theorem send_ne_notcapable (hlookup : s.table.lookup fd.toNat (.single .fdWrite) = .ok d) :
    send s m fd iovs iovsLen ≠ .error .notcapable := by
  cases hlist : m.readIovecs iovs.toNat iovsLen with
  | error e =>
    rw [send_list_error hlookup hlist, Memory.readIovecs_error hlist]
    simp
  | ok entries =>
    cases hgather : m.gather entries with
    | error e =>
      rw [send_gather_error hlookup hlist hgather, Memory.gather_error hgather]
      simp
    | ok bytes =>
      by_cases hfits : bytes.length < 2 ^ 32
      · have h : Sends s m fd iovs iovsLen d entries bytes := ⟨hlookup, hlist, hgather, hfits⟩
        rcases hwrite : d.stream.write bytes with e | ⟨lines, stream⟩
        · rw [h.send_error hwrite]
          rcases Stream.write_error hwrite with rfl | rfl <;> simp
        · rw [h.send_eq hwrite]
          simp
      · rw [send_overflow hlookup hlist hgather (Nat.not_lt.1 hfits)]
        simp

theorem seek_ne_notcapable {offset : Int64} {code : UInt8} {newOffset : UInt32}
    (hlookup : s.table.lookup fd.toNat (.single .fdSeek) = .ok d) :
    (seek s m fd offset code newOffset).errno ≠ .notcapable := by
  by_cases hfile : d.stream.isFile
  · cases hwhence : Whence.ofCode code with
    | error e =>
      rw [seek_whence hlookup hfile hwhence, Whence.ofCode_error hwhence]
      simp
    | ok whence =>
      cases hseek : d.stream.seek offset.toInt whence with
      | error e =>
        rw [seek_failed hlookup hfile hwhence hseek]
        rcases Stream.seek_error hseek with rfl | rfl <;> simp
      | ok stream =>
        rw [seek_moved hlookup hfile hwhence hseek]
        split
        · simp
        · exact storing_write_errno_ne _ _ _ _ _
  · simp only [seek, hlookup, hfile, Bool.not_false, if_true]
    simp

theorem tell_eq {offset : UInt32} (hnull : offset ≠ 0) :
    tell s m fd offset = (s.table.lookup fd.toNat (.single .fdTell)).bind fun d =>
      m.writeU64 offset.toNat (.ofNat d.stream.tell) := by
  simp only [tell, hnull, if_false, bind, Except.bind]

/-- A call that answers with the error of a look-up, and after the look-up with none that a look-up
could have, lacks a right if the look-up does. -/
theorem notcapable_iff_of_lookup {found : Except Errno Descriptor} {answer : Errno}
    (herror : ∀ e, found = .error e → answer = e)
    (hok : ∀ d, found = .ok d → answer ≠ .notcapable) :
    answer = .notcapable ↔ found = .error .notcapable := by
  cases found with
  | error e =>
    rw [herror e rfl]
    exact ⟨congrArg Except.error, Except.error.inj⟩
  | ok d => exact iff_of_false (hok d rfl) (by simp)

/-- A call is refused for want of a right if the look-up of its descriptor is, and only then. -/
theorem run_notcapable_iff {c : Syscall} {r : Right} (hfd : c.descriptor? = some fd)
    (hright : c.right? = some r) (haddressed : c.Addressed) :
    (run s m c).errno = .notcapable ↔
      s.table.lookup fd.toNat (.single r) = .error .notcapable := by
  cases c with
  | fdSeek fd' offset whence newOffset =>
    cases hfd
    cases hright
    refine notcapable_iff_of_lookup (fun e he => ?_) fun d hd => seek_ne_notcapable hd
    rw [run, seek_refused he]
  | fdTell fd' offset =>
    cases hfd
    cases hright
    rw [run, tell_eq haddressed]
    refine notcapable_iff_of_lookup (fun e he => ?_) fun d hd => ?_
    · rw [he]
      rfl
    · rw [hd]
      exact storing_write_errno_ne _ _ _ _ _
  | fdRead fd' iovs iovsLen nread =>
    cases hfd
    cases hright
    rw [run_fdRead haddressed.1 haddressed.2]
    refine notcapable_iff_of_lookup (fun e he => ?_) fun d hd => ?_
    · rw [receive_refused he]
      rfl
    · exact mt (conclude_errno _ _ _ _).1 (receive_ne_notcapable hd)
  | fdWrite fd' iovs iovsLen nwritten =>
    cases hfd
    cases hright
    rw [run_fdWrite haddressed.1 haddressed.2]
    refine notcapable_iff_of_lookup (fun e he => ?_) fun d hd => ?_
    · rw [send_refused he]
      rfl
    · exact mt (conclude_errno _ _ _ _).1 (send_ne_notcapable hd)
  | argsSizesGet argc bufSize => cases hright
  | argsGet argv buf => cases hright
  | environSizesGet count bufSize => cases hright
  | environGet environ buf => cases hright
  | fdClose fd' => cases hright
  | fdFdstatGet fd' stat => cases hright
  | fdPrestatGet fd' prestat => cases hright
  | fdPrestatDirName fd' path pathLen => cases hright

end Syscall

/-! ## What stays of a descriptor -/

/-- A descriptor without its stream. -/
def Descriptor.fixed (d : Descriptor) : Descriptor := d.withStream default

theorem Descriptor.eq_withStream_of_fixed_eq {d d' : Descriptor} (h : d.fixed = d'.fixed) :
    d' = d.withStream d'.stream := by
  simp only [fixed, withStream, Descriptor.mk.injEq] at h
  simp [withStream, h]

/-- The descriptors that an operation adds to a table. -/
def TableStep.added (t : Table) : TableStep → List Descriptor
  | insert d => [d]
  | insertFile name contents mode => [.file (UInt32.ofNat t.capacity) name contents mode]
  | insertStandards fds streams =>
    -- Standard input stays where the others are not reached.
    if t.size = 0 then Table.standards fds streams
    else [.standard .stdin fds.stdin streams.stdin]
  | get _ _ _ | getMut _ _ _ _ | flush => []

namespace Table

/-- The table has exactly the descriptors of the list, in their order and whatever has become of
their streams. -/
def Lists (t : Table) (log : List Descriptor) : Prop :=
  ∃ ds free, t = ofList ds free ∧ ds.map Descriptor.fixed = log.map Descriptor.fixed

variable {t : Table} {log : List Descriptor} {id : Nat} {d : Descriptor}

theorem Lists.get?_eq_none_iff (h : t.Lists log) : t.get? id = none ↔ log.length ≤ id := by
  obtain ⟨ds, free, rfl, hlog⟩ := h
  have hlen : ds.length = log.length := by simpa using congrArg List.length hlog
  rw [get?_ofList, List.getElem?_eq_none_iff, hlen]

theorem Lists.get?_eq_some (h : t.Lists log) (hd : log[id]? = some d) :
    ∃ stream, t.get? id = some (d.withStream stream) := by
  obtain ⟨ds, free, rfl, hlog⟩ := h
  have hfixed := congrArg (·[id]?) hlog
  simp only [List.getElem?_map, hd, Option.map_some] at hfixed
  obtain ⟨d', hd', heq⟩ := Option.map_eq_some_iff.1 hfixed
  exact ⟨d'.stream, by rw [get?_ofList, hd', ← Descriptor.eq_withStream_of_fixed_eq heq.symm]⟩

theorem lists_ofList (ds : List Descriptor) (free : Nat) : (ofList ds free).Lists ds :=
  ⟨ds, free, rfl, rfl⟩

theorem Lists.setStream (h : t.Lists log) (id : Nat) (stream : Stream) :
    (t.setStream id stream).Lists log := by
  obtain ⟨ds, free, rfl, hlog⟩ := h
  refine ⟨_, free, setStream_ofList ds free id stream, ?_⟩
  rw [← hlog]
  apply List.ext_getElem?
  intro j
  rw [List.getElem?_map, List.getElem?_map, List.getElem?_modify]
  cases ds[j]? with
  | none => rfl
  | some d => split <;> rfl

theorem Lists.emptied (h : t.Lists log) : t.emptied.Lists log := by
  obtain ⟨ds, free, rfl, hlog⟩ := h
  refine ⟨_, free, emptied_ofList ds free, ?_⟩
  rw [← hlog, List.map_map]
  rfl

theorem Lists.insert (h : t.Lists log) (d : Descriptor) : (t.insert d).2.Lists (log ++ [d]) := by
  obtain ⟨ds, free, rfl, hlog⟩ := h
  obtain ⟨rest, hrest⟩ := insert_ofList ds free d
  refine ⟨ds ++ [d], rest, by rw [hrest], ?_⟩
  rw [List.map_append, List.map_append, hlog]

theorem Lists.run (h : t.Lists log) (step : TableStep) :
    (t.run step).Lists (log ++ step.added t) := by
  cases step with
  | insert d => exact h.insert d
  | insertFile name contents mode => exact h.insert _
  | insertStandards fds streams =>
    obtain ⟨ds, free, rfl, hlog⟩ := h
    rw [Table.run, TableStep.added, size_ofList]
    by_cases hds : ds = []
    · subst hds
      obtain rfl := List.map_eq_nil_iff.1 hlog.symm
      obtain ⟨rest, hrest⟩ := insertStandards_empty free fds streams
      have hempty : empty free = ofList [] free := rfl
      rw [← hempty, hrest]
      exact lists_ofList _ rest
    · obtain ⟨rest, hrest⟩ := insertStandards_ofList hds free fds streams
      rw [hrest, if_neg (mt List.length_eq_zero_iff.1 hds)]
      refine ⟨_, rest, rfl, ?_⟩
      rw [List.map_append, List.map_append, hlog]
  | get id base inheriting => exact (List.append_nil log).symm ▸ h
  | getMut id base inheriting change =>
    rw [Table.run, TableStep.added, List.append_nil]
    split
    · exact h.setStream _ _
    · exact h
  | flush =>
    rw [Table.run, TableStep.added, List.append_nil, flush_eq]
    exact h.emptied

end Table

theorem Syscall.Touches.lists {s s' : Wasi} {c : Syscall} {log : List Descriptor}
    (h : Touches s c s') (hlog : s.table.Lists log) : s'.table.Lists log := by
  cases h with
  | nothing => exact hlog
  | sought => exact hlog.setStream _ _
  | read => exact hlog.setStream _ _
  | wrote => exact hlog.setStream _ _

theorem GuestStep.lists {w : World} {log : List Descriptor} (hlog : w.wasi.table.Lists log)
    (step : GuestStep) : (step.run w).2.wasi.table.Lists log := by
  cases step with
  | compute change => exact hlog
  | call c => exact (Syscall.run_touches w.wasi w.memory c).lists hlog
  | exit code =>
    simp only [run, Wasi.exit, Wasi.flush_eq, Wasi.emit]
    exact hlog.emptied

/-! ## A host and its guest together -/

/-- A step of the guest, or of its host, which may add descriptors at any time.  What reaches a sink
by a step of the host is not among the lines of the guest. -/
inductive WorldStep where
  | host (step : TableStep)
  | guest (step : GuestStep)

namespace WorldStep

def run (w : World) : WorldStep → World
  | host step => { w with wasi := { w.wasi with table := w.wasi.table.run step } }
  | guest step => (step.run w).2

def added (w : World) : WorldStep → List Descriptor
  | host step => step.added w.wasi.table
  | guest _ => []

/-- The world after some steps. -/
def final (w : World) (steps : List WorldStep) : World := steps.foldl run w

/-- The descriptors that were inserted, as they were, in order. -/
def inserted (w : World) (steps : List WorldStep) : List Descriptor :=
  (visits run w steps).flatMap fun (w, step) => step.added w

variable {w : World} {log : List Descriptor}

theorem lists_run (hlog : w.wasi.table.Lists log) (step : WorldStep) :
    (step.run w).wasi.table.Lists (log ++ step.added w) := by
  cases step with
  | host step => exact hlog.run step
  | guest step =>
    rw [added, List.append_nil]
    exact GuestStep.lists hlog step

/-- The descriptors are those that were inserted, each with the number of its place. -/
theorem lists_final (steps : List WorldStep) (hlog : w.wasi.table.Lists log) :
    (final w steps).wasi.table.Lists (log ++ inserted w steps) := by
  induction steps generalizing w log with
  | nil => exact (List.append_nil log).symm ▸ hlog
  | cons step rest ih =>
    rw [inserted, visits, List.flatMap_cons, ← List.append_assoc]
    exact ih (lists_run hlog step)

end WorldStep

/-! ## What is reported and what is enforced -/

/-- The 24 bytes at `stat` say what a descriptor is and what may be done with it. -/
structure Reports (m : Memory) (stat : Nat) (d : Descriptor) : Prop where
  filetype : Bytes.toNat (m.slice stat 2) = d.filetype.code
  flags : Bytes.toNat (m.slice (stat + 2) 2) = 0
  padding : m.slice (stat + 4) 4 = List.replicate 4 0
  base : m.readU64 (stat + 8) = .ok d.base.bits
  inheriting : m.readU64 (stat + 16) = .ok d.inheriting.bits

/-- Of the calls that need a right on a descriptor exactly those are refused for want of it whose
bit is not set in the mask, whatever their other arguments are and whatever is in memory. -/
def Enforces (s : Wasi) (fd : UInt32) (mask : UInt64) : Prop :=
  ∀ (m : Memory) (c : Syscall) (r : Right), c.descriptor? = some fd → c.right? = some r →
    c.Addressed → ((Syscall.run s m c).errno = .notcapable ↔ mask.toNat.testBit r.bit = false)

namespace Syscall

variable {s : Wasi} {m : Memory} {d : Descriptor} {fd stat : UInt32}

theorem reports_fdstat {start : Nat} (h : m.InBounds start fdstatSize) (d : Descriptor) :
    Reports (m.overlay start (fdstat d)) start d := by
  have hroom : m.InBounds start (fdstat d).length := by rwa [length_fdstat]
  have hfield {k n : Nat} (hk : k + n ≤ fdstatSize) :
      (m.overlay start (fdstat d)).slice (start + k) n = ((fdstat d).drop k).take n :=
    Memory.slice_overlay_within hroom (by rwa [length_fdstat])
  have hword {k : Nat} {word : UInt64} (hk : k + 8 ≤ fdstatSize)
      (hbytes : ((fdstat d).drop k).take 8 = Bytes.ofU64 word) :
      (m.overlay start (fdstat d)).readU64 (start + k) = .ok word := by
    have hin : (m.overlay start (fdstat d)).InBounds (start + k) 8 := by
      have h' : start + fdstatSize ≤ m.size := h
      rw [Memory.InBounds, Memory.size_overlay hroom]
      omega
    rw [Memory.readU64, Memory.read, if_pos hin, hfield hk, hbytes]
    simp only [Except.map, Bytes.toU64_ofU64]
  refine ⟨?_, ?_, ?_, hword (by decide) rfl, hword (by decide) rfl⟩
  · have hcode : d.filetype.code < 256 ^ 2 := by cases d.filetype <;> decide
    have hbytes : ((fdstat d).drop 0).take 2 = Bytes.ofNat 2 d.filetype.code := rfl
    have hfirst := hfield (k := 0) (n := 2) (by decide)
    rw [Nat.add_zero, hbytes] at hfirst
    rw [hfirst, Bytes.toNat_ofNat, Nat.mod_eq_of_lt hcode]
  · rw [hfield (by decide)]
    rfl
  · rw [hfield (by decide)]
    rfl

theorem run_fdFdstatGet_of_none (hnull : stat ≠ 0) (hfd : s.table.get? fd.toNat = none) :
    run s m (.fdFdstatGet fd stat) = ⟨.badf, s, m⟩ := by
  simp only [run, hnull, if_false, Table.lookup, hfd]

theorem run_fdFdstatGet_of_some (hnull : stat ≠ 0) (hroom : m.InBounds stat.toNat fdstatSize)
    (hfd : s.table.get? fd.toNat = some d) :
    run s m (.fdFdstatGet fd stat) = ⟨.success, s, m.overlay stat.toNat (fdstat d)⟩ := by
  have hwrite : m.write stat.toNat (fdstat d) = .ok (m.overlay stat.toNat (fdstat d)) :=
    Memory.write_of_inBounds (by rwa [length_fdstat])
  have hallows : d.allows .none .none = true := by
    rw [Descriptor.allows, Rights.contains_none, Rights.contains_none]
    rfl
  simp only [run, hnull, if_false, Table.lookup_of_allows hfd hallows, hwrite, storing]

theorem badf_fdFdstatGet_iff (hnull : stat ≠ 0) (hroom : m.InBounds stat.toNat fdstatSize) :
    (run s m (.fdFdstatGet fd stat)).errno = .badf ↔ s.table.get? fd.toNat = none := by
  cases hfd : s.table.get? fd.toNat with
  | none => simp [run_fdFdstatGet_of_none hnull hfd]
  | some d => simp [run_fdFdstatGet_of_some hnull hroom hfd]

theorem enforces_of_get? (hd : s.table.get? fd.toNat = some d) : Enforces s fd d.base.bits := by
  intro m c r hfd hright haddressed
  rw [run_notcapable_iff hfd hright haddressed, Table.lookup_single hd]
  cases d.base.bits.toNat.testBit r.bit with
  | true => simp
  | false => exact ⟨fun _ => rfl, fun _ => rfl⟩

end Syscall

/-- The mask with which a descriptor was inserted is enforced ever after. -/
theorem WorldStep.enforces_final {w : World} {log : List Descriptor} {fd : UInt32} {d : Descriptor}
    (hlog : w.wasi.table.Lists log) (hd : log[fd.toNat]? = some d) (steps : List WorldStep) :
    Enforces (final w steps).wasi fd d.base.bits := by
  have hstill : (log ++ inserted w steps)[fd.toNat]? = some d := by
    rw [List.getElem?_append_left (List.getElem?_eq_some_iff.1 hd).1, hd]
  obtain ⟨stream, hstream⟩ := (lists_final steps hlog).get?_eq_some hstill
  have henforces := Syscall.enforces_of_get? hstream
  exact henforces

open Syscall (fdstatSize)
open WorldStep (final inserted)

/-- In every state that a host and its guest reach together, the record of a descriptor says with
what filetype and masks it was inserted, and the mask that is read off the record is the one that
all later calls are held to. -/
theorem reported_enforced (c : Config) (streams : Table.StandardStreams) :
    ∃ s, Wasi.ofConfig c streams = .ok s ∧
      ∀ (m : Memory) (steps : List WorldStep) (fd stat : UInt32),
        let w := final ⟨s, m⟩ steps
        let log := Table.standards c.stdio streams ++ inserted ⟨s, m⟩ steps
        let r := Syscall.run w.wasi w.memory (.fdFdstatGet fd stat)
        stat ≠ 0 → w.memory.InBounds stat.toNat fdstatSize →
          (w.wasi.table.get? fd.toNat = none ↔ log.length ≤ fd.toNat) ∧
          (r.errno = .badf ↔ w.wasi.table.get? fd.toNat = none) ∧
          ∀ d, log[fd.toNat]? = some d → r.errno = .success ∧ Reports r.memory stat.toNat d ∧
            ∀ mask, r.memory.readU64 (stat.toNat + 8) = .ok mask →
              ∀ later, Enforces (final ⟨r.wasi, r.memory⟩ later).wasi fd mask := by
  obtain ⟨s, free, hs, -, htable⟩ := Wasi.ofConfig_over c streams
  refine ⟨s, hs, ?_⟩
  intro m steps fd stat w log r hnull hroom
  have hlists : w.wasi.table.Lists log :=
    WorldStep.lists_final steps (w := ⟨s, m⟩) (htable ▸ Table.lists_ofList _ free)
  refine ⟨hlists.get?_eq_none_iff, Syscall.badf_fdFdstatGet_iff hnull hroom, fun d hd => ?_⟩
  obtain ⟨stream, hstream⟩ := hlists.get?_eq_some hd
  have hr : r = ⟨.success, w.wasi,
      w.memory.overlay stat.toNat (Syscall.fdstat (d.withStream stream))⟩ :=
    Syscall.run_fdFdstatGet_of_some hnull hroom hstream
  have hreports : Reports r.memory stat.toNat d := by
    rw [hr]
    exact Syscall.reports_fdstat hroom d
  refine ⟨by rw [hr], hreports, fun mask hmask later => ?_⟩
  have hmask' : mask = d.base.bits := Except.ok.inj (hmask.symm.trans hreports.base)
  rw [hmask']
  exact WorldStep.enforces_final (by rw [hr]; exact hlists) hd later

/-- A file that may be read but not written, with a bit in either mask that names no right. -/
def peculiar : Descriptor :=
  { Descriptor.file 9 "peculiar" [104, 105] .readWrite with
    base := ⟨0x8000000000000002⟩, inheriting := ⟨0x4000000000000000⟩ }

/-- Its record is given with all bits, and whatever happens to it, writing is refused for want of
the right and reading is not. -/
theorem reported_enforced_peculiar :
    ∃ s, Wasi.ofConfig {} Table.quietStreams = .ok s ∧
      let w := final ⟨s, .blank 64⟩ [.host (.insert peculiar)]
      let r := Syscall.run w.wasi w.memory (.fdFdstatGet 3 8)
      (8 : UInt32) ≠ 0 ∧ w.memory.InBounds 8 fdstatSize ∧
        r.memory.readU64 16 = .ok 0x8000000000000002 ∧
        ∀ later m, let s' := (final ⟨r.wasi, r.memory⟩ later).wasi
          (Syscall.run s' m (.fdWrite 3 1 1 1)).errno = .notcapable ∧
            (Syscall.run s' m (.fdRead 3 1 1 1)).errno ≠ .notcapable := by
  obtain ⟨s, hs, henforced⟩ := reported_enforced {} Table.quietStreams
  refine ⟨s, hs, ?_⟩
  intro w r
  have hnull : (8 : UInt32) ≠ 0 := by decide
  have hroom : w.memory.InBounds 8 fdstatSize := Memory.inBounds_blank (by decide)
  obtain ⟨-, -, hrecord⟩ := henforced (.blank 64) [.host (.insert peculiar)] 3 8 hnull hroom
  obtain ⟨-, hreports, hheld⟩ := hrecord peculiar rfl
  have hpointers : (1 : UInt32) ≠ 0 ∧ (1 : UInt32) ≠ 0 := by decide
  refine ⟨hnull, hroom, hreports.base, fun later m => ⟨?_, ?_⟩⟩
  · have hwrite := hheld _ hreports.base later m (.fdWrite 3 1 1 1) .fdWrite rfl rfl hpointers
    exact hwrite.2 (by decide)
  · have hread := hheld _ hreports.base later m (.fdRead 3 1 1 1) .fdRead rfl rfl hpointers
    exact mt hread.1 (by decide)

end GuestHost
