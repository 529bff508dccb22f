import GuestHost.Proofs.Wasi.Strings

/-!
# What a call writes

A call designates ranges of memory, `designated`, and `answer` is what it has to say in each of
them.  `run_footprint` says that a call lays some of its answers over the memory, each of them in
full, and that no byte outside the ranges changes, whatever the memory holds and wherever the
ranges lie.  Strings that a call hands over have to fit words for this, `Syscall.Fitting`.
-/

namespace GuestHost

/-! ## Ranges -/

namespace Memory

variable {m m' : Memory} {start : Nat} {bs : Bytes} {parts : List (Nat × Bytes)}
  {ranges : List (List (Nat × Bytes))}

/-- Where the parts of a range lie. -/
def runs (parts : List (Nat × Bytes)) : List (Nat × Nat) :=
  parts.map fun part => (part.1, part.2.length)

/-- Where the first `n` bytes of some buffers lie, in the order of the buffers. -/
def firstBytes : List Iovec → (n : Nat) → List (Nat × Nat)
  | [], _ => []
  | _, 0 => []
  | iov :: rest, n =>
    (iov.base.toNat, min iov.len.toNat n) :: firstBytes rest (n - iov.len.toNat)

theorem runs_spread (iovs : List Iovec) (bs : Bytes) :
    runs (spread iovs bs) = firstBytes iovs bs.length := by
  fun_induction spread iovs bs with
  | case1 => rfl
  | case2 iovs => cases iovs <;> rfl
  | case3 iov rest bs hne ih =>
    obtain ⟨n, hn⟩ := Nat.exists_eq_add_one.2 (List.length_pos_of_ne_nil hne)
    rw [hn, firstBytes, ← hn, runs, List.map_cons, List.length_take, ← List.length_drop, ← ih]
    · rfl
    · exact Nat.noConfusion

/-- Parts that are laid over a memory change nothing else. -/
theorem changedWithin_overlayAll (h : ∀ part ∈ parts, m.InBounds part.1 part.2.length) :
    ChangedWithin (runs parts) m (m.overlayAll parts) := by
  induction parts generalizing m with
  | nil => exact ⟨rfl, fun _ _ => rfl⟩
  | cons part rest ih =>
    have hpart := changedWithin_overlay (h part List.mem_cons_self)
    have hrest := ih fun part' hpart' =>
      (h part' (List.mem_cons_of_mem part hpart')).of_size hpart.size
    exact hpart.trans hrest

/-- The ranges are gone through in order, and each is either left out or written with all its
parts. -/
inductive Filled : List (List (Nat × Bytes)) → Memory → Memory → Prop where
  | done (m : Memory) : Filled [] m m
  | leave {m m' : Memory} {parts : List (Nat × Bytes)} {rest : List (List (Nat × Bytes))}
      (h : Filled rest m m') : Filled (parts :: rest) m m'
  | write {m m' : Memory} {parts : List (Nat × Bytes)} {rest : List (List (Nat × Bytes))}
      (hroom : ∀ part ∈ parts, m.InBounds part.1 part.2.length)
      (h : Filled rest (m.overlayAll parts) m') : Filled (parts :: rest) m m'

theorem Filled.changedWithin (h : Filled ranges m m') :
    ChangedWithin (runs ranges.flatten) m m' := by
  induction h with
  | done m => exact ⟨rfl, fun _ _ => rfl⟩
  | leave h ih =>
    refine ⟨ih.size, fun i hi => ih.outside i fun r hr => hi r ?_⟩
    rw [List.flatten_cons, runs, List.map_append]
    exact List.mem_append_right _ hr
  | write hroom h ih =>
    rw [List.flatten_cons, runs, List.map_append]
    exact (changedWithin_overlayAll hroom).trans ih

theorem filled_self (ranges : List (List (Nat × Bytes))) (m : Memory) : Filled ranges m m := by
  induction ranges with
  | nil => exact .done m
  | cons parts rest ih => exact .leave ih

theorem filled_overlay (h : m.InBounds start bs.length) :
    Filled [[(start, bs)]] m (m.overlay start bs) :=
  .write (by simpa using h) (.done _)

theorem filled_writeIfPossible (m : Memory) (start : Nat) (bs : Bytes) :
    Filled [[(start, bs)]] m (m.writeIfPossible start bs) := by
  rw [writeIfPossible, write]
  by_cases h : m.InBounds start bs.length
  · rw [if_pos h]
    exact filled_overlay h
  · rw [if_neg h]
    exact filled_self _ m

end Memory

namespace Syscall

open Memory

variable (s : Wasi) (m : Memory)

/-! ## What a call may write -/

/-- The addresses that must not be null. -/
def pointers : Syscall → List UInt32
  | argsSizesGet count size | environSizesGet count size => [count, size]
  | argsGet ptrs buf | environGet ptrs buf => [ptrs, buf]
  | fdFdstatGet _ stat => [stat]
  | fdTell _ offset => [offset]
  | fdRead _ iovs _ out | fdWrite _ iovs _ out => [iovs, out]
  | fdClose _ | fdPrestatGet _ _ | fdPrestatDirName _ _ _ | fdSeek _ _ _ _ => []

/-- The transfer list of a read and the bytes that the stream hands out for it.  There are none if
the read does not get as far as the stream. -/
def handedOut (fd iovs iovsLen : UInt32) : List Iovec × Bytes :=
  let outcome : Except Errno (List Iovec × Bytes) := do
    let d ← s.table.lookup fd.toNat (.single .fdRead)
    let entries ← m.readIovecs iovs.toNat iovsLen
    m.checkBuffers entries
    let (delivery, _) ← d.stream.read (Iovec.capacity entries)
    pure (entries, delivery.bytes)
  outcome.toOption.getD ([], [])

/-- The ranges of memory that a call designates, each as the runs that it is made of. -/
def designated (c : Syscall) : List (List (Nat × Nat)) :=
  if 0 ∈ c.pointers then []
  else
    match c with
    | argsSizesGet count size | environSizesGet count size =>
      [[(count.toNat, 4)], [(size.toNat, 4)]]
    | argsGet ptrs buf => [[(ptrs.toNat, 4 * s.args.count)], [(buf.toNat, s.args.bytes.length)]]
    | environGet ptrs buf => [[(ptrs.toNat, 4 * s.env.count)], [(buf.toNat, s.env.bytes.length)]]
    | fdFdstatGet _ stat => [[(stat.toNat, fdstatSize)]]
    | fdSeek _ _ _ newOffset => if newOffset = 0 then [] else [[(newOffset.toNat, 8)]]
    | fdTell _ offset => [[(offset.toNat, 8)]]
    | fdRead fd iovs iovsLen nread =>
      let (entries, bytes) := handedOut s m fd iovs iovsLen
      [firstBytes entries bytes.length, [(nread.toNat, 4)]]
    | fdWrite _ _ _ nwritten => [[(nwritten.toNat, 4)]]
    | fdClose _ | fdPrestatGet _ _ | fdPrestatDirName _ _ _ => []

/-! ## What a call has to say -/

/-- The words that say how many strings there are and how long they are. -/
def sizesAnswer (b : StringBlock) (count size : UInt32) : List (List (Nat × Bytes)) :=
  [[(count.toNat, .ofU32 (.ofNat b.count))], [(size.toNat, .ofU32 (.ofNat b.bytes.length))]]

/-- The addresses of the strings and the strings. -/
def blockAnswer (b : StringBlock) (ptrs buf : UInt32) : List (List (Nat × Bytes)) :=
  [[(ptrs.toNat, b.pointers buf.toNat)], [(buf.toNat, b.bytes)]]

/-- The record of a descriptor, if there is one. -/
def recordAnswer (d? : Option Descriptor) (stat : UInt32) : List (List (Nat × Bytes)) :=
  d?.toList.map fun d => [(stat.toNat, fdstat d)]

/-- The position of a descriptor, if there is one. -/
def positionAnswer (d? : Option Descriptor) (out : UInt32) : List (List (Nat × Bytes)) :=
  d?.toList.map fun d => [(out.toNat, .ofU64 (.ofNat d.stream.tell))]

/-- The count of a transfer, or 0 if it does not fit a word. -/
def countAnswer (count : Nat) (out : UInt32) : List (Nat × Bytes) :=
  [(out.toNat, .ofU32 (if count < UInt32.size then .ofNat count else 0))]

/-- The number of bytes that a write hands to the stream; 0 if it fails. -/
def sent (fd iovs iovsLen : UInt32) : Nat :=
  (send s m fd iovs iovsLen).toOption.elim 0 Transfer.count

/-- What a call has to say, range by range. -/
def answer (c : Syscall) : List (List (Nat × Bytes)) :=
  if 0 ∈ c.pointers then []
  else
    match c with
    | argsSizesGet count size => sizesAnswer s.args count size
    | argsGet ptrs buf => blockAnswer s.args ptrs buf
    | environSizesGet count size => sizesAnswer s.env count size
    | environGet ptrs buf => blockAnswer s.env ptrs buf
    | fdFdstatGet fd stat => recordAnswer (s.table.get? fd.toNat) stat
    | fdSeek fd offset whence newOffset =>
      let after := (seek s m fd offset whence newOffset).wasi
      if newOffset = 0 then [] else positionAnswer (after.table.get? fd.toNat) newOffset
    | fdTell fd offset => positionAnswer (s.table.get? fd.toNat) offset
    | fdRead fd iovs iovsLen nread =>
      let (entries, bytes) := handedOut s m fd iovs iovsLen
      [spread entries bytes, countAnswer bytes.length nread]
    | fdWrite fd iovs iovsLen nwritten => [countAnswer (sent s m fd iovs iovsLen) nwritten]
    | fdClose _ | fdPrestatGet _ _ | fdPrestatDirName _ _ _ => []

variable {s m}

theorem runs_single (start : Nat) (bs : Bytes) : runs [(start, bs)] = [(start, bs.length)] := rfl

theorem runs_countAnswer (count : Nat) (out : UInt32) :
    runs (countAnswer count out) = [(out.toNat, 4)] := by
  rw [countAnswer, runs_single, Bytes.length_ofU32]

theorem runs_sizesAnswer (b : StringBlock) (count size : UInt32) :
    (sizesAnswer b count size).map runs = [[(count.toNat, 4)], [(size.toNat, 4)]] := by
  simp only [sizesAnswer, List.map_cons, List.map_nil, runs_single, Bytes.length_ofU32]

theorem runs_blockAnswer (b : StringBlock) (ptrs buf : UInt32) :
    (blockAnswer b ptrs buf).map runs =
      [[(ptrs.toNat, 4 * b.count)], [(buf.toNat, b.bytes.length)]] := by
  have hlength : (b.pointers buf.toNat).length = 4 * b.count :=
    StringBlock.length_pointers b.entries buf.toNat
  simp only [blockAnswer, List.map_cons, List.map_nil, runs_single, hlength]

theorem runs_recordAnswer (d? : Option Descriptor) (stat : UInt32) :
    ((recordAnswer d? stat).map runs).Sublist [[(stat.toNat, fdstatSize)]] := by
  cases d? with
  | none => exact List.nil_sublist _
  | some d => exact length_fdstat d ▸ .refl _

theorem runs_positionAnswer (d? : Option Descriptor) (out : UInt32) :
    ((positionAnswer d? out).map runs).Sublist [[(out.toNat, 8)]] := by
  cases d? with
  | none => exact List.nil_sublist _
  | some d => exact Bytes.length_ofU64 (.ofNat d.stream.tell) ▸ .refl _

/-- Every answer has the extent of a range that the call designates. -/
theorem runs_answer (s : Wasi) (m : Memory) (c : Syscall) :
    ((answer s m c).map runs).Sublist (designated s m c) := by
  unfold answer designated
  by_cases hnull : 0 ∈ c.pointers
  · rw [if_pos hnull, if_pos hnull]
    exact .slnil
  rw [if_neg hnull, if_neg hnull]
  cases c with
  | argsSizesGet count size => exact runs_sizesAnswer s.args count size ▸ .refl _
  | argsGet ptrs buf => exact runs_blockAnswer s.args ptrs buf ▸ .refl _
  | environSizesGet count size => exact runs_sizesAnswer s.env count size ▸ .refl _
  | environGet ptrs buf => exact runs_blockAnswer s.env ptrs buf ▸ .refl _
  | fdClose fd => exact .slnil
  | fdFdstatGet fd stat => exact runs_recordAnswer _ stat
  | fdPrestatGet fd prestat => exact .slnil
  | fdPrestatDirName fd path pathLen => exact .slnil
  | fdSeek fd offset whence newOffset =>
    by_cases hzero : newOffset = 0
    · simp only [hzero, if_true, List.map_nil, List.Sublist.refl]
    · simp only [hzero, if_false, runs_positionAnswer]
  | fdTell fd offset => exact runs_positionAnswer _ offset
  | fdRead fd iovs iovsLen nread =>
    simp only [List.map_cons, List.map_nil, runs_spread, runs_countAnswer, List.Sublist.refl]
  | fdWrite fd iovs iovsLen nwritten =>
    simp only [List.map_cons, List.map_nil, runs_countAnswer, List.Sublist.refl]

/-! ## What each call writes -/

theorem filled_storing (s : Wasi) (m : Memory) (start : Nat) (bs : Bytes) :
    Filled [[(start, bs)]] m (storing s m (m.write start bs)).memory := by
  by_cases h : m.InBounds start bs.length
  · rw [write_of_inBounds h]
    exact filled_overlay h
  · rw [write_of_not_inBounds h]
    exact filled_self _ m

theorem filled_overlay_overlay {start start' : Nat} {bs bs' : Bytes}
    (h : m.InBounds start bs.length) (h' : m.InBounds start' bs'.length) :
    Filled [[(start, bs)], [(start', bs')]] m ((m.overlay start bs).overlay start' bs') :=
  .write (by simpa using h) (filled_overlay (h'.of_size (size_overlay h)))

section Strings

variable (b : StringBlock) {x y : UInt32}

theorem filled_storeSizes (hx : x ≠ 0) (hy : y ≠ 0) :
    Filled (sizesAnswer b x y) m (storing s m (b.storeSizes m x y)).memory := by
  have hroom := StringBlock.length_bytes_eq_room b.entries
  rw [StringBlock.storeSizes_eq b.entries m hx hy, ← hroom]
  split
  · next h => exact filled_overlay_overlay h.1 h.2
  · exact filled_self _ m

theorem filled_store (hx : x ≠ 0) (hy : y ≠ 0) (hm : m.size ≤ 2 ^ 32)
    (hfits : StringBlock.Fits b.entries) :
    Filled (blockAnswer b x y) m (handing s (b.store m x y)).memory := by
  have hlength := StringBlock.length_pointers b.entries y.toNat
  have hroom := StringBlock.length_bytes_eq_room b.entries
  rw [StringBlock.store_eq hx hy m hfits hm, ← hlength, ← hroom]
  split
  · next h => exact filled_overlay_overlay h.1 h.2
  · exact filled_self _ m

end Strings

section Count

/-- A count is stored, or the memory stays as the transfer left it. -/
theorem filled_conclude (s : Wasi) (m : Memory) (out : UInt32) (t : Transfer) :
    Filled [countAnswer t.count out] t.memory (conclude s m out (.ok t)).memory := by
  by_cases hcount : t.count < UInt32.size
  · rw [conclude, countAnswer, if_pos hcount, if_pos hcount]
    by_cases hout : t.memory.InBounds out.toNat (Bytes.ofU32 (.ofNat t.count)).length
    · rw [writeU32, write_of_inBounds hout]
      exact filled_overlay hout
    · rw [writeU32, write_of_not_inBounds hout]
      exact filled_self _ _
  · rw [conclude, countAnswer, if_neg hcount, if_neg hcount]
    exact filled_writeIfPossible t.memory out.toNat _

theorem filled_conclude_error (s : Wasi) (m : Memory) (out : UInt32) (e : Errno) :
    Filled [countAnswer 0 out] m (conclude s m out (.error e)).memory :=
  filled_writeIfPossible m out.toNat _

end Count

section Transfer

variable {fd iovs iovsLen : UInt32} {d : Descriptor} {entries : List Iovec} {delivery : Delivery}
  {stream : Stream}

theorem Receives.handedOut_eq (h : Receives s m fd iovs iovsLen d entries)
    (hread : d.stream.read (Iovec.capacity entries) = .ok (delivery, stream)) :
    handedOut s m fd iovs iovsLen = (entries, delivery.bytes) := by
  simp only [handedOut, h.lookup, h.list, h.buffers, hread, bind, Except.bind, pure, Except.pure,
    Except.toOption, Option.getD_some]

/-- A read that hands out nothing fails before it gets to the stream, or the stream refuses. -/
theorem handedOut_cases (s : Wasi) (m : Memory) (fd iovs iovsLen : UInt32) :
    (handedOut s m fd iovs iovsLen = ([], []) ∧
        ∃ e, receive s m fd iovs iovsLen = (.error e, s)) ∨
      ∃ d entries delivery stream, Receives s m fd iovs iovsLen d entries ∧
        d.stream.read (Iovec.capacity entries) = .ok (delivery, stream) := by
  cases hlookup : s.table.lookup fd.toNat (.single .fdRead) with
  | error e =>
    refine .inl ⟨?_, e, receive_refused hlookup⟩
    simp only [handedOut, hlookup, bind, Except.bind, Except.toOption, Option.getD_none]
  | ok d =>
    cases hlist : m.readIovecs iovs.toNat iovsLen with
    | error e =>
      refine .inl ⟨?_, e, receive_list_error hlookup hlist⟩
      simp only [handedOut, hlookup, hlist, bind, Except.bind, Except.toOption, Option.getD_none]
    | ok entries =>
      cases hbuffers : m.checkBuffers entries with
      | error e =>
        refine .inl ⟨?_, e, receive_buffers_error hlookup hlist hbuffers⟩
        simp only [handedOut, hlookup, hlist, hbuffers, bind, Except.bind, Except.toOption,
          Option.getD_none]
      | ok _ =>
        have h : Receives s m fd iovs iovsLen d entries := ⟨hlookup, hlist, hbuffers⟩
        cases hread : d.stream.read (Iovec.capacity entries) with
        | error e =>
          refine .inl ⟨?_, e, h.receive_error hread⟩
          simp only [handedOut, hlookup, hlist, hbuffers, hread, bind, Except.bind,
            Except.toOption, Option.getD_none]
        | ok taken => exact .inr ⟨d, entries, taken.1, taken.2, h, hread⟩

theorem filled_receive (s : Wasi) (m : Memory) (fd iovs iovsLen out : UInt32) :
    Filled [spread (handedOut s m fd iovs iovsLen).1 (handedOut s m fd iovs iovsLen).2,
        countAnswer (handedOut s m fd iovs iovsLen).2.length out] m
      (conclude (receive s m fd iovs iovsLen).2 m out (receive s m fd iovs iovsLen).1).memory := by
  rcases handedOut_cases s m fd iovs iovsLen with
    ⟨hnone, e, he⟩ | ⟨d, entries, delivery, stream, h, hread⟩
  · rw [hnone, he]
    exact .leave (filled_conclude_error s m out e)
  · rw [h.handedOut_eq hread]
    cases delivery with
    | data bytes =>
      rw [h.receive_data hread]
      have hroom := inBounds_spread (checkBuffers_eq_ok.1 h.buffers) bytes
      exact .write hroom (filled_conclude _ m out
        ⟨bytes.length, s.setStream fd.toNat stream, m.overlayAll (spread entries bytes)⟩)
    | cancelled =>
      rw [h.receive_cancelled hread]
      exact .leave (filled_conclude_error _ m out _)

theorem filled_send (s : Wasi) (m : Memory) (fd iovs iovsLen out : UInt32) :
    Filled [countAnswer (sent s m fd iovs iovsLen) out] m
      (conclude s m out (send s m fd iovs iovsLen)).memory := by
  rcases send_cases s m fd iovs iovsLen with
    ⟨e, -, he⟩ | ⟨d, entries, bytes, lines, stream, h, hwrite⟩
  · rw [sent, he]
    exact filled_conclude_error s m out e
  · rw [sent, h.send_eq hwrite]
    exact filled_conclude s m out _

end Transfer

section Position

variable {fd newOffset : UInt32} {offset : Int64} {code : UInt8}

theorem tell_of_not_isFile {stream : Stream} (h : ¬ stream.isFile) : stream.tell = 0 := by
  cases stream with
  | input i => rfl
  | output o => rfl
  | file f => exact absurd rfl h

theorem filled_tell (s : Wasi) (m : Memory) (fd : UInt32) (hnull : newOffset ≠ 0) :
    Filled (positionAnswer (s.table.get? fd.toNat) newOffset) m
      (storing s m (tell s m fd newOffset)).memory := by
  cases hlookup : s.table.lookup fd.toNat (.single .fdTell) with
  | error e =>
    have hfailed : tell s m fd newOffset = .error e := by
      simp only [tell, hnull, hlookup, bind, Except.bind, if_false]
    rw [hfailed]
    exact filled_self _ m
  | ok d =>
    have htell :
        tell s m fd newOffset = m.write newOffset.toNat (.ofU64 (.ofNat d.stream.tell)) := by
      simp only [tell, hnull, hlookup, bind, Except.bind, if_false]
      rfl
    rw [htell, Table.get?_of_lookup hlookup]
    exact filled_storing s m _ _

theorem filled_seek (s : Wasi) (m : Memory) (fd : UInt32) (offset : Int64) (code : UInt8)
    (newOffset : UInt32) :
    Filled (if newOffset = 0 then []
        else
          positionAnswer ((seek s m fd offset code newOffset).wasi.table.get? fd.toNat) newOffset)
      m (seek s m fd offset code newOffset).memory := by
  cases hlookup : s.table.lookup fd.toNat (.single .fdSeek) with
  | error e =>
    rw [seek_refused hlookup]
    exact filled_self _ m
  | ok d =>
    have hd := Table.get?_of_lookup hlookup
    by_cases hfile : d.stream.isFile
    · cases hwhence : Whence.ofCode code with
      | error e =>
        rw [seek_whence hlookup hfile hwhence]
        exact filled_self _ m
      | ok whence =>
        cases hseek : d.stream.seek offset.toInt whence with
        | error e =>
          rw [seek_failed hlookup hfile hwhence hseek]
          exact filled_self _ m
        | ok stream =>
          rw [seek_moved hlookup hfile hwhence hseek]
          by_cases hnull : newOffset = 0
          · rw [if_pos hnull, if_pos hnull]
            exact .done m
          · rw [if_neg hnull, if_neg hnull, storing_wasi, Wasi.setStream, Table.get?_setStream,
              if_pos rfl, hd]
            exact filled_storing _ m _ _
    · by_cases hnull : newOffset = 0
      · have hstandard : seek s m fd offset code newOffset = ⟨.success, s, m⟩ := by
          simp only [seek, hlookup, hfile, hnull, Bool.not_false, if_true]
        rw [hstandard, if_pos hnull]
        exact .done m
      · have hstandard : seek s m fd offset code newOffset =
            ⟨.success, s, m.writeIfPossible newOffset.toNat (.ofU64 (.ofNat d.stream.tell))⟩ := by
          simp only [seek, hlookup, hfile, hnull, tell_of_not_isFile hfile, Bool.not_false,
            if_true, if_false]
          rfl
        rw [hstandard, hd, if_neg hnull]
        exact filled_writeIfPossible m _ _

end Position

/-! ## All calls -/

theorem filled_fdstat (s : Wasi) (m : Memory) (fd : UInt32) {stat : UInt32} (hnull : stat ≠ 0) :
    Filled (recordAnswer (s.table.get? fd.toNat) stat) m
      (run s m (.fdFdstatGet fd stat)).memory := by
  rw [run, if_neg hnull]
  cases hlookup : s.table.lookup fd.toNat with
  | error e => exact filled_self _ m
  | ok d =>
    rw [Table.get?_of_lookup hlookup]
    exact filled_storing s m _ _

theorem zero_mem_pair {x y : UInt32} : 0 ∈ [x, y] ↔ x = 0 ∨ y = 0 := by
  simp only [List.mem_cons, List.not_mem_nil, or_false, @eq_comm _ (0 : UInt32)]

theorem ne_of_not_mem_pair {x y : UInt32} (h : 0 ∉ [x, y]) : x ≠ 0 ∧ y ≠ 0 :=
  not_or.1 fun hnull => h (zero_mem_pair.2 hnull)

theorem ne_of_not_mem_singleton {x : UInt32} (h : 0 ∉ [x]) : x ≠ 0 :=
  fun hx => h (hx ▸ List.mem_cons_self)

theorem run_filled (s : Wasi) (m : Memory) (c : Syscall) (hm : m.size ≤ 2 ^ 32)
    (hfits : c.Fitting s) (hnull : 0 ∉ c.pointers) :
    Filled (answer s m c) m (run s m c).memory := by
  unfold answer
  rw [if_neg hnull]
  cases c with
  | argsSizesGet count size =>
    obtain ⟨hcount, hsize⟩ := ne_of_not_mem_pair hnull
    exact filled_storeSizes s.args hcount hsize
  | argsGet ptrs buf =>
    obtain ⟨hptrs, hbuf⟩ := ne_of_not_mem_pair hnull
    exact filled_store s.args hptrs hbuf hm hfits
  | environSizesGet count size =>
    obtain ⟨hcount, hsize⟩ := ne_of_not_mem_pair hnull
    exact filled_storeSizes s.env hcount hsize
  | environGet ptrs buf =>
    obtain ⟨hptrs, hbuf⟩ := ne_of_not_mem_pair hnull
    exact filled_store s.env hptrs hbuf hm hfits
  | fdClose fd => exact .done m
  | fdFdstatGet fd stat => exact filled_fdstat s m fd (ne_of_not_mem_singleton hnull)
  | fdPrestatGet fd prestat => exact .done m
  | fdPrestatDirName fd path pathLen => exact .done m
  | fdSeek fd offset whence newOffset => exact filled_seek s m fd offset whence newOffset
  | fdTell fd offset => exact filled_tell s m fd (ne_of_not_mem_singleton hnull)
  | fdRead fd iovs iovsLen nread =>
    obtain ⟨hiovs, hnread⟩ := ne_of_not_mem_pair hnull
    rw [run_fdRead hiovs hnread]
    exact filled_receive s m fd iovs iovsLen nread
  | fdWrite fd iovs iovsLen nwritten =>
    obtain ⟨hiovs, hnwritten⟩ := ne_of_not_mem_pair hnull
    rw [run_fdWrite hiovs hnwritten]
    exact filled_send s m fd iovs iovsLen nwritten

/-- A call that is given null where it must not be changes nothing. -/
theorem run_null {c : Syscall} (hnull : 0 ∈ c.pointers) : run s m c = ⟨.inval, s, m⟩ := by
  cases c with
  | argsSizesGet x y | environSizesGet x y =>
    have hnull' : (x = 0 || y = 0) = true := by simpa using zero_mem_pair.1 hnull
    simp only [run, StringBlock.storeSizes, hnull', if_true]
    rfl
  | argsGet x y | environGet x y =>
    have hnull' : (x = 0 || y = 0) = true := by simpa using zero_mem_pair.1 hnull
    rw [run, StringBlock.store_null _ m hnull', handing]
  | fdFdstatGet fd stat =>
    have hnull' : stat = 0 := (List.mem_singleton.1 hnull).symm
    rw [run, if_pos hnull']
  | fdTell fd offset =>
    have hnull' : offset = 0 := (List.mem_singleton.1 hnull).symm
    simp only [run, tell, hnull', if_true]
    rfl
  | fdRead fd iovs iovsLen out | fdWrite fd iovs iovsLen out =>
    have hnull' : (iovs = 0 || out = 0) = true := by simpa using zero_mem_pair.1 hnull
    rw [run, if_pos hnull']
  | fdClose fd | fdPrestatGet fd prestat | fdPrestatDirName fd path pathLen
  | fdSeek fd offset whence newOffset => cases hnull

/-- A host writes only where its guest asked.  A call writes some of its answers, each of them in
full or not at all and in a range that the call designates, and no byte outside the ranges
changes.  If it is given null where it must not be, then there is no range; asking to be ended
writes nothing either. -/
theorem run_footprint (s : Wasi) (m : Memory) (hm : m.size ≤ 2 ^ 32) :
    (∀ c : Syscall, c.Fitting s → ((answer s m c).map runs).Sublist (designated s m c) ∧
      Filled (answer s m c) m (run s m c).memory ∧
        ChangedWithin (designated s m c).flatten m (run s m c).memory ∧
          (0 ∈ c.pointers → run s m c = ⟨.inval, s, m⟩)) ∧
      ∀ code, ((GuestStep.exit code).run ⟨s, m⟩).2.memory = m := by
  refine ⟨fun c hfits => ?_, fun code => rfl⟩
  have hruns := runs_answer s m c
  have hfilled : Filled (answer s m c) m (run s m c).memory := by
    by_cases hnull : 0 ∈ c.pointers
    · rw [run_null hnull]
      exact filled_self _ m
    · exact run_filled s m c hm hfits hnull
  have hchanged := hfilled.changedWithin
  rw [runs, List.map_flatten] at hchanged
  refine ⟨hruns, hfilled, ⟨hchanged.size, fun i hi => ?_⟩, run_null⟩
  refine hchanged.outside i fun r hr => hi r ?_
  obtain ⟨range, hrange, hr⟩ := List.mem_flatten.1 hr
  exact List.mem_flatten.2 ⟨range, hruns.subset hrange, hr⟩

/-- Three arguments are stored at 4 and 16, in the array of 12 bytes and the block of 6 bytes that
were asked for. -/
theorem run_footprint_threeArgs :
    (blank 32).size ≤ 2 ^ 32 ∧ (argsGet 4 16).Fitting .threeArgs ∧
      (run .threeArgs (.blank 32) (.argsGet 4 16)).errno = .success ∧
      ChangedWithin [(4, 12), (16, 6)] (blank 32)
        (run .threeArgs (.blank 32) (.argsGet 4 16)).memory := by
  have hm : (blank 32).size ≤ 2 ^ 32 := by decide +kernel
  have hfits : (argsGet 4 16).Fitting .threeArgs := ⟨by decide, by decide⟩
  obtain ⟨-, -, hchanged, -⟩ := (run_footprint .threeArgs (.blank 32) hm).1 (.argsGet 4 16) hfits
  exact ⟨hm, hfits, by decide +kernel, hchanged⟩

end Syscall

end GuestHost
