import GuestHost.Proofs.Wasi.Transfer

/-!
# Empty buffers in a transfer list

`Compacts` relates two memories of which the second one holds the same transfer list without its
empty entries.  A write does the same over both of them: what is gathered does not depend on the
empty entries, `Memory.gather_compact`.  What is scattered does not depend on them either,
`Memory.overlayAll_spread_compact`; but a read checks all buffers before it looks at its stream, the
empty ones too.  So a read does the same over both memories unless the first one is refused for an
empty buffer past the end, and for nothing else: `agrees_iff`.
-/

namespace GuestHost

namespace Iovec

/-- The entries of a transfer list whose buffers are not empty, in their order. -/
def compact (entries : List Iovec) : List Iovec := entries.filter fun iov => iov.len ≠ 0

variable {iov : Iovec} {entries : List Iovec}

theorem compact_cons_empty (h : iov.len = 0) : compact (iov :: entries) = compact entries :=
  List.filter_cons_of_neg (by simpa using h)

theorem compact_cons (h : iov.len ≠ 0) : compact (iov :: entries) = iov :: compact entries :=
  List.filter_cons_of_pos (by simpa using h)

theorem mem_compact : iov ∈ compact entries ↔ iov ∈ entries ∧ iov.len ≠ 0 := by
  simp [compact]

theorem capacity_compact (entries : List Iovec) :
    capacity (compact entries) = capacity entries := by
  induction entries with
  | nil => rfl
  | cons iov rest ih =>
    by_cases hlen : iov.len = 0
    · have hzero : iov.len.toNat = 0 := congrArg UInt32.toNat hlen
      rw [compact_cons_empty hlen, capacity_cons, hzero, Nat.zero_add, ih]
    · rw [compact_cons hlen, capacity_cons, capacity_cons, ih]

end Iovec

namespace Memory

variable {m m' : Memory} {entries : List Iovec} {start len : Nat} {bs : Bytes}
  {runs : List (Nat × Nat)}

/-! ## Transfers without the empty entries -/

theorem gather_compact (m : Memory) (entries : List Iovec) :
    m.gather (Iovec.compact entries) = m.gather entries := by
  induction entries with
  | nil => rfl
  | cons iov rest ih =>
    by_cases hlen : iov.len = 0
    · rw [Iovec.compact_cons_empty hlen, ih, gather, if_pos hlen]
    · rw [Iovec.compact_cons hlen, gather, gather, ih]

/-- An empty buffer receives nothing, wherever it lies. -/
theorem overlayAll_spread_compact (m : Memory) (entries : List Iovec) (bs : Bytes) :
    m.overlayAll (spread (Iovec.compact entries) bs) = m.overlayAll (spread entries bs) := by
  induction entries generalizing m bs with
  | nil => rfl
  | cons iov rest ih =>
    by_cases hbs : bs = []
    · rw [hbs, spread_nil, spread_nil]
    · by_cases hlen : iov.len = 0
      · have hzero : iov.len.toNat = 0 := congrArg UInt32.toNat hlen
        rw [Iovec.compact_cons_empty hlen, spread.eq_3 _ _ _ hbs, overlayAll_cons, hzero,
          List.take_zero, overlay_nil, List.drop_zero, ih]
      · rw [Iovec.compact_cons hlen, spread.eq_3 _ _ _ hbs, spread.eq_3 _ _ _ hbs, overlayAll_cons,
          overlayAll_cons, ih]

/-! ## Memories that differ in one place -/

theorem ChangedWithin.inBounds_iff (h : ChangedWithin runs m m') :
    m'.InBounds start len ↔ m.InBounds start len := by
  rw [InBounds, InBounds, h.size]

theorem ChangedWithin.slice {run : Nat × Nat} (h : ChangedWithin [run] m m')
    (hapart : Apart run.1 run.2 start len) : m'.slice start len = m.slice start len := by
  apply List.ext_getElem?
  intro j
  rw [getElem?_slice, getElem?_slice]
  split
  · refine h.outside _ (List.forall_mem_singleton.2 fun hrun => ?_)
    rcases apart_iff.1 hapart with h' | h' | h' | h' <;> omega
  · rfl

theorem ChangedWithin.read {run : Nat × Nat} (h : ChangedWithin [run] m m')
    (hapart : Apart run.1 run.2 start len) : m'.read start len = m.read start len := by
  simp only [Memory.read, h.inBounds_iff, h.slice hapart]

theorem ChangedWithin.gather {run : Nat × Nat} (h : ChangedWithin [run] m m')
    (hapart : ∀ iov ∈ entries, iov.len ≠ 0 → Apart run.1 run.2 iov.base.toNat iov.len.toNat) :
    m'.gather entries = m.gather entries := by
  induction entries with
  | nil => rfl
  | cons iov rest ih =>
    obtain ⟨hiov, hrest⟩ := List.forall_mem_cons.1 hapart
    rw [Memory.gather, Memory.gather, ih hrest]
    by_cases hlen : iov.len = 0
    · rw [if_pos hlen, if_pos hlen]
    · rw [if_neg hlen, if_neg hlen, h.read (hiov hlen)]

/-- The same bytes laid over both memories leave them to differ where they differed. -/
theorem ChangedWithin.overlay (h : ChangedWithin runs m m') (hin : m.InBounds start bs.length) :
    ChangedWithin runs (m.overlay start bs) (m'.overlay start bs) := by
  have hin' := h.inBounds_iff.2 hin
  refine ⟨by rw [size_overlay hin, size_overlay hin', h.size], fun i hi => ?_⟩
  rw [getElem?_toList_overlay hin, getElem?_toList_overlay hin', h.outside i hi]

theorem ChangedWithin.overlayAll {parts : List (Nat × Bytes)} (h : ChangedWithin runs m m')
    (hin : ∀ part ∈ parts, m.InBounds part.1 part.2.length) :
    ChangedWithin runs (m.overlayAll parts) (m'.overlayAll parts) := by
  induction parts generalizing m m' with
  | nil => exact h
  | cons part parts ih =>
    obtain ⟨hpart, hparts⟩ := List.forall_mem_cons.1 hin
    exact ih (h.overlay hpart) fun part' h' => (hparts part' h').of_size (size_overlay hpart)

theorem ChangedWithin.writeIfPossible (h : ChangedWithin runs m m') (start : Nat) (bs : Bytes) :
    ChangedWithin runs (m.writeIfPossible start bs) (m'.writeIfPossible start bs) := by
  unfold Memory.writeIfPossible
  by_cases hin : m.InBounds start bs.length
  · rw [write_of_inBounds hin, write_of_inBounds (h.inBounds_iff.2 hin)]
    exact h.overlay hin
  · rw [write_of_not_inBounds hin, write_of_not_inBounds (mt h.inBounds_iff.1 hin)]
    exact h

end Memory

namespace Syscall

/-! ## Two memories with one list -/

/-- Both memories hold a transfer list at one address, the second one without the empty entries, and
differ nowhere else.  The list is apart from the buffers and from the word for the count. -/
structure Compacts (m m' : Memory) (iovs count count' out : UInt32) (entries : List Iovec) : Prop
    where
  list : m.readIovecs iovs.toNat count = .ok entries
  compact : m'.readIovecs iovs.toNat count' = .ok (Iovec.compact entries)
  others : Memory.ChangedWithin [(iovs.toNat, Iovec.width * count.toNat)] m m'
  buffers : ∀ iov ∈ entries, iov.len ≠ 0 →
    Memory.Apart iovs.toNat (Iovec.width * count.toNat) iov.base.toNat iov.len.toNat
  out : Memory.Apart iovs.toNat (Iovec.width * count.toNat) out.toNat 4

/-- Two answers cannot be told apart but by the memory that holds the transfer list. -/
structure Agree (run : Nat × Nat) (out : UInt32) (entries : List Iovec) (r r' : Result) : Prop where
  errno : r'.errno = r.errno
  /-- The streams are left in the same state, and the same lines have reached a sink. -/
  wasi : r'.wasi = r.wasi
  memory : Memory.ChangedWithin [run] r.memory r'.memory
  count : r'.memory.readU32 out.toNat = r.memory.readU32 out.toNat
  transferred : ∀ iov ∈ entries, iov.len ≠ 0 →
    r'.memory.read iov.base.toNat iov.len.toNat = r.memory.read iov.base.toNat iov.len.toNat

variable {s : Wasi} {m m' : Memory} {fd iovs count count' out : UInt32} {d : Descriptor}
  {entries : List Iovec} {runs : List (Nat × Nat)} {r r' : Result}

theorem Compacts.agree (h : Compacts m m' iovs count count' out entries)
    (herrno : r'.errno = r.errno) (hwasi : r'.wasi = r.wasi)
    (hmemory : Memory.ChangedWithin [(iovs.toNat, Iovec.width * count.toNat)] r.memory r'.memory) :
    Agree (iovs.toNat, Iovec.width * count.toNat) out entries r r' where
  errno := herrno
  wasi := hwasi
  memory := hmemory
  count := by rw [Memory.readU32, Memory.readU32, hmemory.read h.out]
  transferred iov hiov hlen := hmemory.read (h.buffers iov hiov hlen)

/-- Outcomes of a transfer that differ in the memory only, and there only within some runs. -/
inductive Alike (runs : List (Nat × Nat)) :
    Except Errno Transfer → Except Errno Transfer → Prop where
  | error (e : Errno) : Alike runs (.error e) (.error e)
  | ok {m m' : Memory} (n : Nat) (s : Wasi) (h : Memory.ChangedWithin runs m m') :
      Alike runs (.ok ⟨n, s, m⟩) (.ok ⟨n, s, m'⟩)

/-- Concluding alike outcomes gives the same error number, the same state and memories that differ
only where they did. -/
theorem Alike.conclude {t t' : Except Errno Transfer} (h : Alike runs t t')
    (hmemory : Memory.ChangedWithin runs m m') (s : Wasi) (out : UInt32) :
    (Syscall.conclude s m' out t').errno = (Syscall.conclude s m out t).errno ∧
      (Syscall.conclude s m' out t').wasi = (Syscall.conclude s m out t).wasi ∧
      Memory.ChangedWithin runs (Syscall.conclude s m out t).memory
        (Syscall.conclude s m' out t').memory := by
  cases h with
  | error e => exact ⟨rfl, rfl, hmemory.writeIfPossible _ _⟩
  | @ok m₁ m₁' n s₁ h =>
    by_cases hcount : n < UInt32.size
    · simp only [Syscall.conclude, hcount, if_true]
      by_cases hin : m₁.InBounds out.toNat 4
      · rw [Memory.writeU32_of_inBounds hin, Memory.writeU32_of_inBounds (h.inBounds_iff.2 hin)]
        exact ⟨rfl, rfl, h.overlay (by rwa [Bytes.length_ofU32])⟩
      · rw [Memory.writeU32_of_not_inBounds hin,
          Memory.writeU32_of_not_inBounds (mt h.inBounds_iff.1 hin)]
        exact ⟨rfl, rfl, h⟩
    · simp only [Syscall.conclude, hcount, if_false]
      exact ⟨trivial, trivial, h.writeIfPossible _ _⟩

/-! ## Writes -/

theorem Compacts.outgoing (h : Compacts m m' iovs count count' out entries) :
    outgoing m' iovs count' = outgoing m iovs count := by
  simp only [Syscall.outgoing, h.list, h.compact, Memory.gather_compact,
    h.others.gather h.buffers, bind, Except.bind]

theorem Compacts.send (h : Compacts m m' iovs count count' out entries) (s : Wasi) (fd : UInt32) :
    Alike [(iovs.toNat, Iovec.width * count.toNat)] (send s m fd iovs count)
      (send s m' fd iovs count') := by
  cases hlookup : s.table.lookup fd.toNat (.single .fdWrite) with
  | error e =>
    rw [send_refused hlookup, send_refused hlookup]
    exact .error e
  | ok d =>
    rw [send_eq_outgoing hlookup, send_eq_outgoing hlookup, h.outgoing]
    cases Syscall.outgoing m iovs count with
    | error e => exact .error e
    | ok bytes =>
      cases hwrite : d.stream.write bytes with
      | error e =>
        simp only [Except.bind, hwrite, Except.map]
        exact .error e
      | ok written =>
        simp only [Except.bind, hwrite, Except.map]
        exact .ok _ _ h.others

theorem Compacts.agree_write (h : Compacts m m' iovs count count' out entries) (s : Wasi)
    (fd : UInt32) :
    Agree (iovs.toNat, Iovec.width * count.toNat) out entries
      (run s m (.fdWrite fd iovs count out)) (run s m' (.fdWrite fd iovs count' out)) := by
  by_cases hnull : (iovs = 0 || out = 0) = true
  · rw [run, run, if_pos hnull, if_pos hnull]
    exact h.agree rfl rfl h.others
  · rw [run, run, if_neg hnull, if_neg hnull]
    obtain ⟨herrno, hwasi, hmemory⟩ := (h.send s fd).conclude h.others s out
    exact h.agree herrno hwasi hmemory

/-! ## Reads -/

theorem Compacts.checkBuffers (h : Compacts m m' iovs count count' out entries) :
    m'.checkBuffers (Iovec.compact entries) = .ok () ↔
      ∀ iov ∈ entries, iov.len ≠ 0 → m.InBounds iov.base.toNat iov.len.toNat := by
  simp only [Memory.checkBuffers_eq_ok, Iovec.mem_compact, h.others.inBounds_iff, and_imp]

theorem checkBuffers_fault (h : m.checkBuffers entries ≠ .ok ()) :
    m.checkBuffers entries = .error .fault := by
  cases hcheck : m.checkBuffers entries with
  | ok _ => exact absurd hcheck h
  | error e => rw [Memory.checkBuffers_error hcheck]

/-- If the empty buffers pass the check as well, receiving does the same over both memories. -/
theorem Compacts.receive_of_receives (h : Compacts m m' iovs count count' out entries)
    (hreceives : Receives s m fd iovs count d entries) :
    (receive s m' fd iovs count').2 = (receive s m fd iovs count).2 ∧
      Alike [(iovs.toNat, Iovec.width * count.toNat)] (receive s m fd iovs count).1
        (receive s m' fd iovs count').1 := by
  have hall := Memory.checkBuffers_eq_ok.1 hreceives.buffers
  have hreceives' : Receives s m' fd iovs count' d (Iovec.compact entries) :=
    ⟨hreceives.lookup, h.compact, h.checkBuffers.2 fun iov hiov _ => hall iov hiov⟩
  rcases hread : d.stream.read (Iovec.capacity entries) with e | ⟨bytes | _, stream⟩
  · rw [hreceives.receive_error hread,
      hreceives'.receive_error (by rwa [Iovec.capacity_compact])]
    exact ⟨rfl, .error e⟩
  · rw [hreceives.receive_data hread, hreceives'.receive_data (by rwa [Iovec.capacity_compact]),
      Memory.overlayAll_spread_compact]
    exact ⟨rfl, .ok _ _ (h.others.overlayAll (Memory.inBounds_spread hall bytes))⟩
  · rw [hreceives.receive_cancelled hread,
      hreceives'.receive_cancelled (by rwa [Iovec.capacity_compact])]
    exact ⟨rfl, .error .canceled⟩

/-- A read is refused for an empty buffer past the end of the memory, and for nothing else: the
descriptor can be read and the other buffers are inside the memory.  (It would end in the same way
without the empty buffer if there were no room for the count and the stream, asked for bytes, had
none and stayed as it was.) -/
structure RefusedForEmpty (s : Wasi) (m : Memory) (fd iovs out : UInt32) (entries : List Iovec)
    (d : Descriptor) : Prop where
  list_ne : iovs ≠ 0
  out_ne : out ≠ 0
  lookup : s.table.lookup fd.toNat (.single .fdRead) = .ok d
  buffers : ∀ iov ∈ entries, iov.len ≠ 0 → m.InBounds iov.base.toNat iov.len.toNat
  empty : ∃ iov ∈ entries, iov.len = 0 ∧ m.size < iov.base.toNat
  told : ¬ (¬ m.InBounds out.toNat 4 ∧
    ∃ bytes, d.stream.read (Iovec.capacity entries) = .ok (.data bytes, d.stream))

theorem RefusedForEmpty.checkBuffers (h : RefusedForEmpty s m fd iovs out entries d) :
    m.checkBuffers entries = .error .fault := by
  obtain ⟨iov, hiov, hlen, hpast⟩ := h.empty
  refine checkBuffers_fault fun hok => ?_
  have hin : iov.base.toNat + iov.len.toNat ≤ m.size := Memory.checkBuffers_eq_ok.1 hok iov hiov
  omega

theorem stream_eq_of_setStream {id : Nat} {stream : Stream} (hd : s.table.get? id = some d)
    (h : s.setStream id stream = s) : stream = d.stream := by
  have hget := congrArg (·.table.get? id) h
  simp only [Wasi.setStream, Table.get?_setStream, if_true, hd, Option.map_some,
    Option.some.injEq] at hget
  exact congrArg Descriptor.stream hget

/-- A read that gets as far as its stream ends like one that was refused for its buffers only if
there is no room for the count and the stream stayed as it was. -/
theorem Receives.refused_of_fault (h : Receives s m fd iovs count d entries)
    (herrno : (conclude (receive s m fd iovs count).2 m out (receive s m fd iovs count).1).errno =
      .fault)
    (hwasi : (conclude (receive s m fd iovs count).2 m out (receive s m fd iovs count).1).wasi =
      s) :
    ¬ m.InBounds out.toNat 4 ∧
      ∃ bytes, d.stream.read (Iovec.capacity entries) = .ok (.data bytes, d.stream) := by
  have hall := Memory.checkBuffers_eq_ok.1 h.buffers
  rcases hread : d.stream.read (Iovec.capacity entries) with e | ⟨bytes | _, stream⟩
  · rw [h.receive_error hread, Stream.read_error hread] at herrno
    cases herrno
  · rw [h.receive_data hread] at herrno hwasi
    have hsize := Memory.size_overlayAll (Memory.inBounds_spread hall bytes)
    by_cases hcount : bytes.length < UInt32.size
    · by_cases hin : m.InBounds out.toNat 4
      · rw [conclude_stored hcount (hin.of_size hsize)] at herrno
        cases herrno
      · have hnot : ¬ (m.overlayAll (Memory.spread entries bytes)).InBounds out.toNat 4 :=
          fun h => hin (h.of_size hsize.symm)
        rw [(conclude_unstored _ _ (.inl hnot)).2.1] at hwasi
        have hstream := stream_eq_of_setStream (Table.get?_of_lookup h.lookup) hwasi
        exact ⟨hin, bytes, by rw [hstream]⟩
    · simp only [conclude, hcount, if_false] at herrno
      cases herrno
  · rw [h.receive_cancelled hread] at herrno
    cases herrno

/-- Without room for the count, a read whose stream has no bytes and stays as it was ends like one
that was refused for its buffers. -/
theorem Receives.run_fault (h : Receives s m fd iovs count d entries)
    (hout : ¬ m.InBounds out.toNat 4) {bytes : Bytes}
    (hread : d.stream.read (Iovec.capacity entries) = .ok (.data bytes, d.stream)) :
    conclude (receive s m fd iovs count).2 m out (receive s m fd iovs count).1 =
      ⟨.fault, s, m⟩ := by
  have hnone : bytes = [] := Stream.read_self hread
  have hself := Wasi.setStream_self (Table.get?_of_lookup h.lookup)
  subst hnone
  rw [h.receive_data hread, hself, Memory.spread_nil]
  simp only [Memory.overlayAll, List.foldl_nil, conclude, List.length_nil,
    Memory.writeU32_of_not_inBounds hout, storing]
  rfl

theorem exists_empty (hcheck : m.checkBuffers entries ≠ .ok ())
    (hfilled : ∀ iov ∈ entries, iov.len ≠ 0 → m.InBounds iov.base.toNat iov.len.toNat) :
    ∃ iov ∈ entries, iov.len = 0 ∧ m.size < iov.base.toNat := by
  by_contra hnone
  refine hcheck (Memory.checkBuffers_eq_ok.2 fun iov hiov => ?_)
  by_cases hlen : iov.len = 0
  · have hzero : iov.len.toNat = 0 := congrArg UInt32.toNat hlen
    rw [Memory.InBounds, hzero]
    exact Nat.not_lt.1 fun hpast => hnone ⟨iov, hiov, hlen, hpast⟩
  · exact hfilled iov hiov hlen

/-- Where only an empty buffer fails the check, the read over the second memory goes on to the
stream. -/
theorem Compacts.agree_refused_iff (h : Compacts m m' iovs count count' out entries)
    (hlookup : s.table.lookup fd.toNat (.single .fdRead) = .ok d)
    (hfilled : ∀ iov ∈ entries, iov.len ≠ 0 → m.InBounds iov.base.toNat iov.len.toNat) :
    Agree (iovs.toNat, Iovec.width * count.toNat) out entries (conclude s m out (.error .fault))
        (conclude (receive s m' fd iovs count').2 m' out (receive s m' fd iovs count').1) ↔
      ¬ m.InBounds out.toNat 4 ∧
        ∃ bytes, d.stream.read (Iovec.capacity entries) = .ok (.data bytes, d.stream) := by
  have hreceives : Receives s m' fd iovs count' d (Iovec.compact entries) :=
    ⟨hlookup, h.compact, h.checkBuffers.2 hfilled⟩
  refine ⟨fun hagree => ?_, ?_⟩
  · have htold := hreceives.refused_of_fault hagree.errno hagree.wasi
    rwa [h.others.inBounds_iff, Iovec.capacity_compact] at htold
  · rintro ⟨hroom, bytes, hread⟩
    have hunstored : m.writeIfPossible out.toNat (.ofU32 0) = m := by
      rw [Memory.writeIfPossible, Memory.write_of_not_inBounds (by exact hroom)]
    rw [hreceives.run_fault (mt h.others.inBounds_iff.1 hroom) (by rwa [Iovec.capacity_compact])]
    refine h.agree rfl rfl ?_
    rw [conclude, hunstored]
    exact h.others

/-- A read does the same over both memories unless it is refused for an empty buffer. -/
theorem Compacts.agree_read_iff (h : Compacts m m' iovs count count' out entries) (s : Wasi)
    (fd : UInt32) :
    Agree (iovs.toNat, Iovec.width * count.toNat) out entries
        (run s m (.fdRead fd iovs count out)) (run s m' (.fdRead fd iovs count' out)) ↔
      ¬ ∃ d, RefusedForEmpty s m fd iovs out entries d := by
  by_cases hnull : iovs = 0 ∨ out = 0
  · have hnull' : (iovs = 0 || out = 0) = true := by simpa using hnull
    rw [run, run, if_pos hnull', if_pos hnull']
    refine iff_of_true (h.agree rfl rfl h.others) ?_
    rintro ⟨_, hd⟩
    exact hnull.elim hd.list_ne hd.out_ne
  obtain ⟨hiovs, hout⟩ := not_or.1 hnull
  rw [run_fdRead hiovs hout, run_fdRead hiovs hout]
  cases hlookup : s.table.lookup fd.toNat (.single .fdRead) with
  | error e =>
    rw [receive_refused hlookup, receive_refused hlookup]
    obtain ⟨herrno, hwasi, hmemory⟩ := (Alike.error e).conclude h.others s out
    refine iff_of_true (h.agree herrno hwasi hmemory) ?_
    rintro ⟨_, hd⟩
    cases hlookup.symm.trans hd.lookup
  | ok d =>
    by_cases hcheck : m.checkBuffers entries = .ok ()
    · -- All buffers pass the check, the empty ones too.
      obtain ⟨hstate, halike⟩ := h.receive_of_receives ⟨hlookup, h.list, hcheck⟩
      obtain ⟨herrno, hwasi, hmemory⟩ := halike.conclude h.others (receive s m fd iovs count).2 out
      rw [hstate]
      refine iff_of_true (h.agree herrno hwasi hmemory) ?_
      rintro ⟨_, hd⟩
      cases hcheck.symm.trans hd.checkBuffers
    rw [receive_buffers_error hlookup h.list (checkBuffers_fault hcheck)]
    by_cases hfilled : ∀ iov ∈ entries, iov.len ≠ 0 → m.InBounds iov.base.toNat iov.len.toNat
    · -- Only an empty buffer fails the check.
      rw [h.agree_refused_iff hlookup hfilled]
      constructor
      · rintro htold ⟨d', hd⟩
        obtain rfl := Except.ok.inj (hlookup.symm.trans hd.lookup)
        exact hd.told htold
      · intro hnot
        by_contra htold
        exact hnot ⟨d, hiovs, hout, hlookup, hfilled, exists_empty hcheck hfilled, htold⟩
    · -- A buffer that is not empty fails the check over both memories.
      rw [receive_buffers_error hlookup h.compact
        (checkBuffers_fault (mt h.checkBuffers.1 hfilled))]
      obtain ⟨herrno, hwasi, hmemory⟩ := (Alike.error .fault).conclude h.others s out
      refine iff_of_true (h.agree herrno hwasi hmemory) ?_
      rintro ⟨_, hd⟩
      exact hfilled hd.buffers

/-- The empty entries of a transfer list make no difference to a write, and none to a read either
unless one of them lies past the end of the memory and is all that the read is refused for. -/
theorem agrees_iff (h : Compacts m m' iovs count count' out entries) (s : Wasi) (fd : UInt32) :
    Agree (iovs.toNat, Iovec.width * count.toNat) out entries
        (run s m (.fdWrite fd iovs count out)) (run s m' (.fdWrite fd iovs count' out)) ∧
      (Agree (iovs.toNat, Iovec.width * count.toNat) out entries
          (run s m (.fdRead fd iovs count out)) (run s m' (.fdRead fd iovs count' out)) ↔
        ¬ ∃ d, RefusedForEmpty s m fd iovs out entries d) :=
  ⟨h.agree_write s fd, h.agree_read_iff s fd⟩

/-- A fresh state whose standard input has one line. -/
def oneLine : Wasi :=
  match Wasi.ofConfig {} (.over (.ofLines ["keep"]) ⟨1⟩ ⟨2⟩) with
  | .ok s => s
  | .error _ => default

/-- A memory that holds a list at address 8. -/
def listed (list : List Iovec) : Memory := (Memory.blank 64).overlay 8 (list.flatMap Iovec.encode)

/-- A buffer of eight bytes, after an empty one that lies at some address. -/
def emptyAt (base : UInt32) : List Iovec := [⟨base, 0⟩, ⟨32, 8⟩]

/-- The memory with the list in place of which the empty buffer is left out. -/
def tidied (base : UInt32) : Memory :=
  (listed (emptyAt base)).overlay 8 (Iovec.encode ⟨32, 8⟩ ++ List.replicate 8 0)

theorem changedWithin_tidied (base : UInt32) :
    Memory.ChangedWithin [(8, 16)] (listed (emptyAt base)) (tidied base) := by
  have hlist : (Memory.blank 64).InBounds 8 ((emptyAt base).flatMap Iovec.encode).length :=
    Memory.inBounds_blank (by simp [emptyAt, Iovec.encode])
  have hlisted : (listed (emptyAt base)).InBounds 8
      (Iovec.encode ⟨32, 8⟩ ++ List.replicate 8 0).length :=
    (Memory.inBounds_blank (by decide)).of_size (Memory.size_overlay hlist)
  exact Memory.changedWithin_overlay hlisted

/-- The empty buffer lies at the end of the memory. -/
theorem agrees_iff_atEnd :
    Compacts (listed (emptyAt 64)) (tidied 64) 8 2 1 48 (emptyAt 64) ∧
      Agree (8, 16) 48 (emptyAt 64) (run oneLine (listed (emptyAt 64)) (.fdRead 0 8 2 48))
        (run oneLine (tidied 64) (.fdRead 0 8 1 48)) ∧
      (run oneLine (tidied 64) (.fdRead 0 8 1 48)).errno = .success := by
  have hcompacts : Compacts (listed (emptyAt 64)) (tidied 64) 8 2 1 48 (emptyAt 64) :=
    { list := by decide +kernel
      compact := by decide +kernel
      others := changedWithin_tidied _
      buffers := by decide +kernel
      out := by decide +kernel }
  refine ⟨hcompacts, (agrees_iff hcompacts oneLine 0).2.2 fun ⟨d, hd⟩ => ?_, by decide +kernel⟩
  have hcheck : (listed (emptyAt 64)).checkBuffers (emptyAt 64) = .ok () := by decide +kernel
  exact nomatch hcheck.symm.trans hd.checkBuffers

/-- The empty buffer lies past the end of the memory, and the read is refused. -/
theorem not_agree_pastEnd :
    Compacts (listed (emptyAt 9999)) (tidied 9999) 8 2 1 48 (emptyAt 9999) ∧
      (run oneLine (listed (emptyAt 9999)) (.fdRead 0 8 2 48)).errno = .fault ∧
      (run oneLine (tidied 9999) (.fdRead 0 8 1 48)).errno = .success ∧
      ¬ Agree (8, 16) 48 (emptyAt 9999) (run oneLine (listed (emptyAt 9999)) (.fdRead 0 8 2 48))
        (run oneLine (tidied 9999) (.fdRead 0 8 1 48)) := by
  have hrefused : (run oneLine (listed (emptyAt 9999)) (.fdRead 0 8 2 48)).errno = .fault := by
    decide +kernel
  have hgoes : (run oneLine (tidied 9999) (.fdRead 0 8 1 48)).errno = .success := by
    decide +kernel
  refine ⟨?_, hrefused, hgoes, fun hagree => ?_⟩
  · exact
      { list := by decide +kernel
        compact := by decide +kernel
        others := changedWithin_tidied _
        buffers := by decide +kernel
        out := by decide +kernel }
  · have herrno := hagree.errno
    rw [hrefused, hgoes] at herrno
    cases herrno

end Syscall

end GuestHost
