import GuestHost.Proofs.Memory

/-!
# Loads and stores

A `Load` is a way to read a memory and a `Store` a way to write one; `Load.run_eq` and
`Store.run_eq` say that all of them come to a slice and an overlay of their width.  So whatever its
kind, a store is read back, `Store.read_back`, is not seen by a load apart from it,
`Store.load_of_apart`, and changes places with a store apart from it, `Store.after_comm`.  A
transfer list is what its bytes encode, `readIovecs_eq_ok_iff`, and `readIovecs_write` reads back a
list that was stored.
-/

namespace GuestHost

namespace Bytes

theorem ofU32_toU32 {bs : Bytes} (h : bs.length = 4) : ofU32 (toU32 bs) = bs := by
  have hlt : toNat bs < 256 ^ bs.length := toNat_lt bs
  rw [h] at hlt
  rw [ofU32, toU32, UInt32.toNat_ofNat_of_lt' hlt, ← h, ofNat_toNat]

@[simp]
theorem toNat_ofU16 (word : UInt16) : toNat (ofNat 2 word.toNat) = word.toNat := by
  have h : word.toNat < 256 ^ 2 := word.toNat_lt
  rw [toNat_ofNat, Nat.mod_eq_of_lt h]

end Bytes

namespace Memory

variable {m m' : Memory} {start start' : UInt32}

theorem read_eq_ok_iff {start len : Nat} {bs : Bytes} :
    m.read start len = .ok bs ↔ m.InBounds start len ∧ bs = m.slice start len := by
  rw [read]
  split
  · next h => simp [h, eq_comm]
  · next h => simp [h]

theorem inBounds_overlay {start start' len : Nat} {bs : Bytes} (h : m.InBounds start bs.length) :
    (m.overlay start bs).InBounds start' len ↔ m.InBounds start' len := by
  rw [InBounds, InBounds, size_overlay h]

theorem overlay_comm {start start' : Nat} {bs bs' : Bytes} (h : m.InBounds start bs.length)
    (h' : m.InBounds start' bs'.length) (hapart : Apart start bs.length start' bs'.length) :
    (m.overlay start bs).overlay start' bs' = (m.overlay start' bs').overlay start bs := by
  apply eq_of_toList_eq
  apply List.ext_getElem?
  intro i
  rw [getElem?_toList_overlay (h'.of_size (size_overlay h)), getElem?_toList_overlay h,
    getElem?_toList_overlay (h.of_size (size_overlay h')), getElem?_toList_overlay h']
  split
  · next hi => rw [if_neg (by rcases apart_iff.1 hapart with h | h | h | h <;> omega)]
  · rfl

/-! ## Loads -/

/-- A way to read a memory, by the type of what is read. -/
inductive Load : Type → Type
  /-- A run of bytes. -/
  | slice (len : UInt32) : Load Bytes
  /-- A 32-bit word. -/
  | u32 : Load UInt32
  /-- A 64-bit word. -/
  | u64 : Load UInt64

namespace Load

variable {α : Type}

/-- The number of bytes that are read. -/
def width : Load α → Nat
  | slice len => len.toNat
  | u32 => 4
  | u64 => 8

/-- What the bytes stand for. -/
def decode : Load α → Bytes → α
  | slice _, bs => bs
  | u32, bs => Bytes.toU32 bs
  | u64, bs => Bytes.toU64 bs

/-- Reads a memory. -/
def run (m : Memory) (start : UInt32) : Load α → Except Errno α
  | slice len => m.read start.toNat len.toNat
  | u32 => m.readU32 start.toNat
  | u64 => m.readU64 start.toNat

theorem run_eq (a : Load α) (m : Memory) (start : UInt32) :
    a.run m start = (m.read start.toNat a.width).map a.decode := by
  cases a with
  | slice len =>
    simp only [run, width]
    cases m.read start.toNat len.toNat <;> rfl
  | u32 => rfl
  | u64 => rfl

variable {a : Load α}

/-- A load ends with what the bytes at its address stand for if they all exist. -/
theorem run_eq_ok_iff {x : α} :
    a.run m start = .ok x ↔
      start.toNat + a.width ≤ m.size ∧ x = a.decode (m.slice start.toNat a.width) := by
  have hin : start.toNat + a.width ≤ m.size ↔ m.InBounds start.toNat a.width := Iff.rfl
  rw [run_eq, read, hin]
  split
  · next h => simp [h, Except.map, eq_comm]
  · next h => simp [h, Except.map]

/-- A load that fails does so because some of the bytes do not exist. -/
theorem run_eq_error_iff {e : Errno} :
    a.run m start = .error e ↔ m.size < start.toNat + a.width ∧ e = .fault := by
  rw [run_eq, read, ← Nat.not_le]
  change _ ↔ ¬ m.InBounds start.toNat a.width ∧ e = .fault
  split
  · next h => simp [h, Except.map]
  · next h => simp [h, Except.map, eq_comm]

end Load

/-! ## Stores -/

/-- Changes a run of bytes where it is. -/
def change (m : Memory) (start len : Nat) (f : Bytes → Bytes) : Except Errno Memory :=
  (m.read start len).bind fun bs => m.write start (f bs)

/-- A way to write a memory. -/
inductive Store where
  /-- A run of bytes is laid over what is there. -/
  | bytes (bs : Bytes)
  /-- A run of bytes is handed out to be changed where it is. -/
  | inPlace (len : UInt32) (f : Bytes → Bytes) (keeps : ∀ bs, (f bs).length = bs.length)
  /-- A 16-bit word. -/
  | u16 (word : UInt16)
  /-- A 32-bit word. -/
  | u32 (word : UInt32)
  /-- A 64-bit word. -/
  | u64 (word : UInt64)

namespace Store

/-- The number of bytes that are written. -/
def width : Store → Nat
  | bytes bs => bs.length
  | inPlace len _ _ => len.toNat
  | u16 _ => 2
  | u32 _ => 4
  | u64 _ => 8

/-- The bytes that are written. -/
def content (m : Memory) (start : UInt32) : Store → Bytes
  | bytes bs => bs
  | inPlace len f _ => f (m.slice start.toNat len.toNat)
  | u16 word => .ofNat 2 word.toNat
  | u32 word => .ofU32 word
  | u64 word => .ofU64 word

/-- Writes a memory. -/
def run (m : Memory) (start : UInt32) : Store → Except Errno Memory
  | bytes bs => m.write start.toNat bs
  | inPlace len f _ => m.change start.toNat len.toNat f
  | u16 word => m.writeU16 start.toNat word
  | u32 word => m.writeU32 start.toNat word
  | u64 word => m.writeU64 start.toNat word

variable {s s' : Store}

theorem length_content (h : m.InBounds start.toNat s.width) :
    (s.content m start).length = s.width := by
  cases s with
  | bytes bs => rfl
  | inPlace len f keeps => exact (keeps _).trans (length_slice h)
  | u16 word => exact Bytes.length_ofNat 2 _
  | u32 word => exact Bytes.length_ofU32 word
  | u64 word => exact Bytes.length_ofU64 word

/-- There is room for the bytes of a store as they are. -/
theorem inBounds_content (h : m.InBounds start.toNat s.width) :
    m.InBounds start.toNat (s.content m start).length := by
  rwa [length_content h]

theorem run_of_inBounds (h : m.InBounds start.toNat s.width) :
    s.run m start = .ok (m.overlay start.toNat (s.content m start)) := by
  have hcontent := inBounds_content h
  cases s with
  | inPlace len f keeps =>
    have hread : m.read start.toNat len.toNat = .ok (m.slice start.toNat len.toNat) :=
      read_eq_ok_iff.2 ⟨h, rfl⟩
    rw [run, change, hread]
    exact write_of_inBounds hcontent
  | bytes | u16 | u32 | u64 => exact write_of_inBounds hcontent

theorem run_of_not_inBounds (h : ¬ m.InBounds start.toNat s.width) :
    s.run m start = .error .fault := by
  cases s with
  | inPlace len f keeps =>
    have hread : m.read start.toNat len.toNat = .error .fault := if_neg h
    rw [run, change, hread]
    rfl
  | bytes bs => exact write_of_not_inBounds h
  | u16 word => exact write_of_not_inBounds (by rwa [Bytes.length_ofNat])
  | u32 word => exact write_of_not_inBounds (by rwa [Bytes.length_ofU32])
  | u64 word => exact write_of_not_inBounds (by rwa [Bytes.length_ofU64])

theorem run_eq (s : Store) (m : Memory) (start : UInt32) :
    s.run m start =
      if m.InBounds start.toNat s.width then .ok (m.overlay start.toNat (s.content m start))
      else .error .fault := by
  split
  · next h => exact run_of_inBounds h
  · next h => exact run_of_not_inBounds h

theorem run_eq_ok_iff :
    s.run m start = .ok m' ↔
      start.toNat + s.width ≤ m.size ∧ m' = m.overlay start.toNat (s.content m start) := by
  have hin : start.toNat + s.width ≤ m.size ↔ m.InBounds start.toNat s.width := Iff.rfl
  rw [run_eq, hin]
  split
  · next h => simp [h, eq_comm]
  · next h => simp [h]

/-- A store that fails does so because some of the bytes do not exist. -/
theorem run_eq_error_iff {e : Errno} :
    s.run m start = .error e ↔ m.size < start.toNat + s.width ∧ e = .fault := by
  rw [run_eq, ← Nat.not_le]
  change _ ↔ ¬ m.InBounds start.toNat s.width ∧ e = .fault
  split
  · next h => simp [h]
  · next h => simp [h, eq_comm]

theorem changedWithin (h : s.run m start = .ok m') :
    m.ChangedWithin [(start.toNat, s.width)] m' := by
  obtain ⟨hin, rfl⟩ := run_eq_ok_iff.1 h
  have hchanged := changedWithin_overlay (inBounds_content hin)
  rwa [length_content hin] at hchanged

/-- What was stored is there. -/
theorem slice_run (h : s.run m start = .ok m') :
    m'.slice start.toNat s.width = s.content m start := by
  obtain ⟨hin, rfl⟩ := run_eq_ok_iff.1 h
  have hslice := slice_overlay_self (inBounds_content hin)
  rwa [length_content hin] at hslice

/-- A load as wide as a store reads what was stored. -/
theorem read_back {α : Type} (a : Load α) (hwidth : a.width = s.width)
    (h : s.run m start = .ok m') : a.run m' start = .ok (a.decode (s.content m start)) := by
  have hin : start.toNat + s.width ≤ m.size := (run_eq_ok_iff.1 h).1
  rw [Load.run_eq_ok_iff, hwidth, (changedWithin h).size, slice_run h]
  exact ⟨hin, rfl⟩

/-- A load apart from a store ends as it would have before. -/
theorem load_of_apart {α : Type} (a : Load α)
    (hapart : Apart start.toNat s.width start'.toNat a.width) (h : s.run m start = .ok m') :
    a.run m' start' = a.run m start' := by
  obtain ⟨hin, rfl⟩ := run_eq_ok_iff.1 h
  have hcontent := inBounds_content hin
  have hslice : (m.overlay start.toNat (s.content m start)).slice start'.toNat a.width =
      m.slice start'.toNat a.width :=
    slice_overlay_of_apart hcontent (by rwa [length_content hin])
  rw [Load.run_eq, Load.run_eq, read, read, hslice]
  simp only [inBounds_overlay hcontent]

/-- A store apart from another one writes the bytes it would have written before. -/
theorem content_of_apart (hapart : Apart start.toNat s.width start'.toNat s'.width)
    (hin : m.InBounds start.toNat s.width) :
    s'.content (m.overlay start.toNat (s.content m start)) start' = s'.content m start' := by
  cases s' with
  | inPlace len f keeps =>
    exact congrArg f (slice_overlay_of_apart (inBounds_content hin) (by rwa [length_content hin]))
  | bytes | u16 | u32 | u64 => rfl

/-- The memory after a store, or the memory itself when the store fails. -/
def after (m : Memory) (start : UInt32) (s : Store) : Memory :=
  match s.run m start with
  | .ok m' => m'
  | .error _ => m

theorem after_of_run (h : s.run m start = .ok m') : s.after m start = m' := by
  rw [after, h]

theorem after_of_inBounds (h : m.InBounds start.toNat s.width) :
    s.after m start = m.overlay start.toNat (s.content m start) :=
  after_of_run (run_of_inBounds h)

theorem after_of_not_inBounds (h : ¬ m.InBounds start.toNat s.width) : s.after m start = m := by
  rw [after, run_of_not_inBounds h]

theorem size_after (s : Store) (m : Memory) (start : UInt32) :
    (s.after m start).size = m.size := by
  by_cases h : m.InBounds start.toNat s.width
  · rw [after_of_inBounds h, size_overlay (inBounds_content h)]
  · rw [after_of_not_inBounds h]

/-- Whether a store fails depends on the size of the memory only. -/
theorem map_run_of_size (h : m'.size = m.size) :
    (s.run m' start).map (fun _ => ()) = (s.run m start).map fun _ => () := by
  rw [run_eq, run_eq]
  by_cases hin : m.InBounds start.toNat s.width
  · rw [if_pos hin, if_pos (hin.of_size h)]
    rfl
  · rw [if_neg hin, if_neg fun hin' => hin (hin'.of_size h.symm)]

/-- Stores that are apart may be made in either order, whether or not they fail. -/
theorem after_comm (m : Memory) (hapart : Apart start.toNat s.width start'.toNat s'.width) :
    s'.after (s.after m start) start' = s.after (s'.after m start') start := by
  by_cases h : m.InBounds start.toNat s.width
  · have hroom := inBounds_content h
    rw [after_of_inBounds h]
    by_cases h' : m.InBounds start'.toNat s'.width
    · have hroom' := inBounds_content h'
      have hboth : Apart start.toNat (s.content m start).length start'.toNat
          (s'.content m start').length := by
        rwa [length_content h, length_content h']
      rw [after_of_inBounds h', after_of_inBounds ((inBounds_overlay hroom).2 h'),
        after_of_inBounds ((inBounds_overlay hroom').2 h), content_of_apart hapart h,
        content_of_apart hapart.symm h', overlay_comm hroom hroom' hboth]
    · rw [after_of_not_inBounds h', after_of_not_inBounds (mt (inBounds_overlay hroom).1 h'),
        after_of_inBounds h]
  · rw [after_of_not_inBounds h]
    exact (after_of_not_inBounds fun hin => h (hin.of_size (size_after s' m start').symm)).symm

end Store

end Memory

/-! ## Transfer lists -/

namespace Iovec

theorem length_encode (iov : Iovec) : iov.encode.length = 8 := by
  rw [encode, List.length_append, Bytes.length_ofU32, Bytes.length_ofU32]

theorem length_flatMap_encode (iovs : List Iovec) :
    (iovs.flatMap encode).length = 8 * iovs.length := by
  induction iovs with
  | nil => rfl
  | cons iov rest ih =>
    rw [List.flatMap_cons, List.length_append, length_encode, ih, List.length_cons]
    omega

theorem decodeList_encode_append (iov : Iovec) (rest : Bytes) :
    decodeList (iov.encode ++ rest) = iov :: decodeList rest := by
  have hwords (a b : UInt32) (rest : Bytes) :
      decodeList (Bytes.ofU32 a ++ Bytes.ofU32 b ++ rest) = ⟨a, b⟩ :: decodeList rest := by
    have ha := Bytes.toU32_ofU32 a
    have hb := Bytes.toU32_ofU32 b
    match hbytes : Bytes.ofU32 a, Bytes.length_ofU32 a, hbytes' : Bytes.ofU32 b,
      Bytes.length_ofU32 b with
    | [_, _, _, _], _, [_, _, _, _], _ =>
      rw [hbytes] at ha
      rw [hbytes'] at hb
      simp only [List.cons_append, List.nil_append, decodeList, ha, hb]
  exact hwords iov.base iov.len rest

theorem decodeList_flatMap_encode (iovs : List Iovec) :
    decodeList (iovs.flatMap encode) = iovs := by
  induction iovs with
  | nil => rfl
  | cons iov rest ih => rw [List.flatMap_cons, decodeList_encode_append, ih]

/-- Bytes are the encoding of the entries that they hold, if they hold entries only. -/
theorem flatMap_encode_decodeList {bs : Bytes} {n : Nat} (h : bs.length = 8 * n) :
    (decodeList bs).flatMap encode = bs := by
  induction n generalizing bs with
  | zero =>
    rw [List.eq_nil_of_length_eq_zero h]
    rfl
  | succ n ih =>
    match bs, h with
    | b0 :: b1 :: b2 :: b3 :: l0 :: l1 :: l2 :: l3 :: rest, h =>
      have hrest : rest.length = 8 * n := by
        simp only [List.length_cons] at h
        omega
      rw [decodeList, List.flatMap_cons, ih hrest, encode, Bytes.ofU32_toU32 rfl,
        Bytes.ofU32_toU32 rfl]
      rfl

end Iovec

namespace Memory

variable {m : Memory} {start : Nat} {count : UInt32} {iovs : List Iovec}

/-- The entries of a transfer list are the ones whose encoding is found at its address. -/
theorem readIovecs_eq_ok_iff :
    m.readIovecs start count = .ok iovs ↔
      (start + 8 * count.toNat ≤ m.size ∧ 8 * count.toNat < 2 ^ 32) ∧
        iovs.length = count.toNat ∧
          iovs.flatMap Iovec.encode = m.slice start (8 * count.toNat) := by
  have hin : start + 8 * count.toNat ≤ m.size ↔ m.InBounds start (8 * count.toNat) := Iff.rfl
  have hwidth : Iovec.width * count.toNat = 8 * count.toNat := rfl
  have hlimit : UInt32.size = 2 ^ 32 := rfl
  simp only [readIovecs, read, hin, hwidth, hlimit]
  by_cases hlen : 8 * count.toNat < 2 ^ 32
  · rw [if_pos hlen]
    by_cases h : m.InBounds start (8 * count.toNat)
    · have hslice := length_slice h
      simp only [h, hlen, if_true, Except.map, Except.ok.injEq, true_and]
      constructor
      · rintro rfl
        have hencode := Iovec.flatMap_encode_decodeList hslice
        have hlength := Iovec.length_flatMap_encode
          (Iovec.decodeList (m.slice start (8 * count.toNat)))
        rw [hencode, hslice] at hlength
        exact ⟨by omega, hencode⟩
      · rintro ⟨-, hencode⟩
        rw [← hencode, Iovec.decodeList_flatMap_encode]
    · simp only [h, if_false, Except.map, reduceCtorEq, false_and]
  · rw [if_neg hlen]
    simp only [hlen, reduceCtorEq, and_false, false_and]

/-- A transfer list can be read if it takes up fewer than 2³² bytes and all of them exist. -/
theorem isOk_readIovecs_iff :
    (∃ iovs, m.readIovecs start count = .ok iovs) ↔
      start + 8 * count.toNat ≤ m.size ∧ 8 * count.toNat < 2 ^ 32 := by
  refine ⟨fun ⟨iovs, h⟩ => (readIovecs_eq_ok_iff.1 h).1, fun h => ?_⟩
  have hslice : (m.slice start (8 * count.toNat)).length = 8 * count.toNat := length_slice h.1
  have hencode := Iovec.flatMap_encode_decodeList hslice
  have hlength := Iovec.length_flatMap_encode (Iovec.decodeList (m.slice start (8 * count.toNat)))
  rw [hencode, hslice] at hlength
  exact ⟨_, readIovecs_eq_ok_iff.2 ⟨h, by omega, hencode⟩⟩

/-- A transfer list that was stored is read back. -/
theorem readIovecs_write (hin : start + 8 * iovs.length ≤ m.size)
    (hlen : 8 * iovs.length < 2 ^ 32) :
    ∃ m', m.write start (iovs.flatMap Iovec.encode) = .ok m' ∧
      m'.readIovecs start (.ofNat iovs.length) = .ok iovs := by
  have hlength := Iovec.length_flatMap_encode iovs
  have hroom : m.InBounds start (iovs.flatMap Iovec.encode).length := by
    rw [InBounds, hlength]
    exact hin
  have hcount : (UInt32.ofNat iovs.length).toNat = iovs.length :=
    UInt32.toNat_ofNat_of_lt (by rw [UInt32.size]; omega)
  have hslice := slice_overlay_self hroom
  rw [hlength] at hslice
  refine ⟨_, write_of_inBounds hroom, readIovecs_eq_ok_iff.2 ?_⟩
  rw [hcount, size_overlay hroom, hslice]
  exact ⟨⟨hin, hlen⟩, rfl, rfl⟩

end Memory

end GuestHost
