import GuestHost.Proofs.Checked.Call
import GuestHost.Proofs.Memory.Store

/-!
# Loads and stores, word by word

`loadAt` and `storeAt` make a load and a store as a computation in place.  `accesses_bounded` says
what they and the reading of a transfer list come to in a memory of at most 2³² bytes: an access
succeeds exactly if its end, as an exact number, is not past the end of the memory, a store changes
its own bytes and nothing else, and a transfer list is what its bytes encode.
-/

namespace GuestHost

namespace Checked

open Memory (Load Store)

variable {α : Type} {w : World} {start : UInt32} {s : Store}

/-- Started in `w`, the computation does not crash and ends with `r` in `w'`. -/
def Returns (p : Checked α) (w : World) (r : Except Errno α) (w' : World) : Prop :=
  ∀ log, ∃ accesses, p ⟨w, log⟩ = .ok (r, ⟨w', log ++ accesses⟩)

theorem Ends.returns {p : Checked α} {w w' : World} {r : Except Errno α} (h : Ends p w r w') :
    Returns p w r w' := fun log =>
  (h.run log).imp fun _ => And.left

/-! ## Single accesses -/

/-- Reads a long word. -/
def readU64 (start : UInt32) : Checked UInt64 := readWord 8 Bytes.toU64 start

/-- Hands out a run of bytes and copies back what became of it. -/
def change (start len : UInt32) (f : Bytes → Bytes) : Checked Unit := do
  let place ← range start len.toNat
  let bs ← load place
  copy place (f bs)

/-- A load that is carried out access by access. -/
def loadAt {α : Type} (start : UInt32) : Load α → Checked α
  | .slice len => slice start len
  | .u32 => readU32 start
  | .u64 => readU64 start

/-- A store that is carried out access by access. -/
def storeAt (start : UInt32) : Store → Checked Unit
  | .bytes bs => write start bs
  | .inPlace len f _ => change start len f
  | .u16 word => write start (.ofNat 2 word.toNat)
  | .u32 word => writeU32 start word
  | .u64 word => writeU64 start word

theorem ends_loadAt (a : Load α) (start : UInt32) (hw : w.memory.size ≤ 2 ^ 32) :
    Ends (loadAt start a) w (a.run w.memory start) w := by
  cases a with
  | slice len => exact ends_slice start len hw
  | u32 => exact ends_readU32 start hw
  | u64 => exact ends_readWord 8 Bytes.toU64 start hw

theorem ends_change {len : UInt32} {f : Bytes → Bytes} (hf : ∀ bs, (f bs).length = bs.length)
    (hw : w.memory.size ≤ 2 ^ 32) :
    Ends (change start len f) w ((w.memory.change start.toNat len.toNat f).map fun _ => ())
      (stored w (w.memory.change start.toNat len.toNat f)) := by
  rw [Memory.change, Memory.read]
  by_cases h : w.memory.InBounds start.toNat len.toNat
  · have hlength := (hf _).trans (Memory.length_slice h)
    have hroom : w.memory.InBounds start.toNat
        (f (w.memory.slice start.toNat len.toNat)).length := by
      rwa [hlength]
    have hcopy := ends_copy hroom
    rw [hlength] at hcopy
    simp only [h, if_true, Except.bind, Memory.write_of_inBounds hroom]
    exact (ends_range h hw).bind ((ends_load h).bind hcopy)
  · rw [if_neg h]
    exact (ends_range_fault h).bind_error

theorem stored_run (w : World) (s : Store) (start : UInt32) :
    stored w (s.run w.memory start) = { w with memory := s.after w.memory start } := by
  rw [Store.after]
  cases s.run w.memory start <;> rfl

/-- A store ends as the store of a memory does. -/
theorem ends_storeAt (s : Store) (start : UInt32) (hw : w.memory.size ≤ 2 ^ 32) :
    Ends (storeAt start s) w ((s.run w.memory start).map fun _ => ())
      (stored w (s.run w.memory start)) := by
  cases s with
  | inPlace len f keeps => exact ends_change keeps hw
  | bytes bs => exact ends_write_stored start bs hw
  | u16 word => exact ends_write_stored start (.ofNat 2 word.toNat) hw
  | u32 word => exact ends_write_stored start (.ofU32 word) hw
  | u64 word => exact ends_write_stored start (.ofU64 word) hw

/-- Two stores one after the other, each with its own outcome. -/
def storeBoth (start : UInt32) (s : Store) (start' : UInt32) (s' : Store) :
    Checked (Except Errno Unit × Except Errno Unit) := do
  let r ← attempt (storeAt start s)
  let r' ← attempt (storeAt start' s')
  pure (r, r')

theorem ends_storeBoth (s s' : Store) (start start' : UInt32) (hw : w.memory.size ≤ 2 ^ 32) :
    Ends (storeBoth start s start' s') w
      (.ok ((s.run w.memory start).map fun _ => (), (s'.run w.memory start').map fun _ => ()))
      { w with memory := s'.after (s.after w.memory start) start' } := by
  have hsize := Store.size_after s w.memory start
  have hfirst := (ends_storeAt s start hw).attempt
  have hsecond := (@ends_storeAt { w with memory := s.after w.memory start } s' start'
    (hsize.trans_le hw)).attempt
  rw [stored_run] at hfirst hsecond
  rw [Store.map_run_of_size hsize] at hsecond
  exact hfirst.bind (hsecond.bind (ends_pure _ _))

theorem returns_readIovecs (start count : UInt32) (hw : w.memory.size ≤ 2 ^ 32) :
    Returns (readIovecs start count) w (w.memory.readIovecs start.toNat count) w := by
  by_cases hcount : 8 * count.toNat < UInt32.size
  · exact (ends_readIovecs_of_lt hw hcount).returns
  · intro log
    rw [readIovecs_of_not_lt hcount, readIovecs, Nat.mul_comm count.toNat 8, if_neg hcount]
    exact ⟨[⟨start, 8 * count.toNat, some .fault⟩], rfl⟩

/-! ## All accesses -/

/-- A load ends with `r`, as a function of the memory and as a computation in place. -/
def Loads {α : Type} (a : Load α) (start : UInt32) (w : World) (r : Except Errno α) : Prop :=
  a.run w.memory start = r ∧ Returns (loadAt start a) w r w

/-- A store ends with `r`, as a function of the memory and as a computation in place, which leaves
the memory as it was if `r` is an error. -/
def Stores (s : Store) (start : UInt32) (w : World) (r : Except Errno Memory) : Prop :=
  s.run w.memory start = r ∧ Returns (storeAt start s) w (r.map fun _ => ()) (stored w r)

/-- The reading of a transfer list ends with `r`, as a function of the memory and as a computation
in place. -/
def Lists (start count : UInt32) (w : World) (r : Except Errno (List Iovec)) : Prop :=
  w.memory.readIovecs start.toNat count = r ∧ Returns (readIovecs start count) w r w

/-- What is asked of the accesses to the memory of a world. -/
structure Bounded (w : World) : Prop where
  /-- A load succeeds if its exact end is not past the end of the memory. -/
  load_ok : ∀ {α : Type} (a : Load α) (start : UInt32), start.toNat + a.width ≤ w.memory.size →
    Loads a start w (.ok (a.decode (w.memory.slice start.toNat a.width)))
  /-- Any other load fails. -/
  load_fault : ∀ {α : Type} (a : Load α) (start : UInt32),
    w.memory.size < start.toNat + a.width → Loads a start w (.error .fault)
  /-- A store succeeds if its exact end is not past the end of the memory; then its bytes are at
  their address, and no other byte has changed. -/
  store_ok : ∀ (s : Store) (start : UInt32), start.toNat + s.width ≤ w.memory.size →
    ∃ m, Stores s start w (.ok m) ∧ m.slice start.toNat s.width = s.content w.memory start ∧
      w.memory.ChangedWithin [(start.toNat, s.width)] m
  /-- Any other store fails, which changes nothing. -/
  store_fault : ∀ (s : Store) (start : UInt32), w.memory.size < start.toNat + s.width →
    Stores s start w (.error .fault)
  /-- A 16-bit word that was stored is there, the low byte first. -/
  u16_back : ∀ (word : UInt16) (start : UInt32) (m : Memory),
    Stores (.u16 word) start w (.ok m) →
      ∃ bs, Loads (.slice 2) start { w with memory := m } (.ok bs) ∧
        Bytes.toNat bs = word.toNat
  /-- A 32-bit word that was stored is read back. -/
  u32_back : ∀ (word : UInt32) (start : UInt32) (m : Memory),
    Stores (.u32 word) start w (.ok m) → Loads .u32 start { w with memory := m } (.ok word)
  /-- A 64-bit word that was stored is read back. -/
  u64_back : ∀ (word : UInt64) (start : UInt32) (m : Memory),
    Stores (.u64 word) start w (.ok m) → Loads .u64 start { w with memory := m } (.ok word)
  /-- A load that is apart from a store ends as it would have before. -/
  load_apart : ∀ {α : Type} (a : Load α) (s : Store) (start start' : UInt32) (m : Memory),
    Memory.Apart start.toNat s.width start'.toNat a.width → Stores s start w (.ok m) →
      ∃ r, Loads a start' w r ∧ Loads a start' { w with memory := m } r
  /-- Stores that are apart end the same in either order. -/
  store_apart : ∀ (s s' : Store) (start start' : UInt32),
    Memory.Apart start.toNat s.width start'.toNat s'.width →
      ∃ r r' m, s'.after (s.after w.memory start) start' = m ∧
        s.after (s'.after w.memory start') start = m ∧
        Returns (storeBoth start s start' s') w (.ok (r, r')) { w with memory := m } ∧
        Returns (storeBoth start' s' start s) w (.ok (r', r)) { w with memory := m }
  /-- A transfer list can be read if its exact end is not past the end of the memory and its size
  fits a word; then its entries are those that its bytes encode. -/
  list_ok : ∀ start count : UInt32,
    start.toNat + 8 * count.toNat ≤ w.memory.size → 8 * count.toNat < 2 ^ 32 →
      ∃ iovs, Lists start count w (.ok iovs) ∧ iovs.length = count.toNat ∧
        iovs.flatMap Iovec.encode = w.memory.slice start.toNat (8 * count.toNat)
  /-- No other transfer list can be read. -/
  list_fault : ∀ start count : UInt32,
    w.memory.size < start.toNat + 8 * count.toNat ∨ 2 ^ 32 ≤ 8 * count.toNat →
      Lists start count w (.error .fault)
  /-- A transfer list that was stored is read back. -/
  list_back : ∀ (iovs : List Iovec) (start : UInt32),
    start.toNat + 8 * iovs.length ≤ w.memory.size → 8 * iovs.length < 2 ^ 32 →
      ∃ m, Stores (.bytes (iovs.flatMap Iovec.encode)) start w (.ok m) ∧
        Lists start (.ofNat iovs.length) { w with memory := m } (.ok iovs)

theorem loads (a : Load α) (start : UInt32) (hw : w.memory.size ≤ 2 ^ 32) :
    Loads a start w (a.run w.memory start) :=
  ⟨rfl, (ends_loadAt a start hw).returns⟩

theorem stores (s : Store) (start : UInt32) (hw : w.memory.size ≤ 2 ^ 32) :
    Stores s start w (s.run w.memory start) :=
  ⟨rfl, (ends_storeAt s start hw).returns⟩

theorem lists (start count : UInt32) (hw : w.memory.size ≤ 2 ^ 32) :
    Lists start count w (w.memory.readIovecs start.toNat count) :=
  ⟨rfl, returns_readIovecs start count hw⟩

theorem Stores.size_le {m : Memory} (h : Stores s start w (.ok m))
    (hw : w.memory.size ≤ 2 ^ 32) : m.size ≤ 2 ^ 32 :=
  (Store.changedWithin h.1).size.trans_le hw

/-- A load as wide as a store, made after it. -/
theorem Stores.loads_back {m : Memory} (h : Stores s start w (.ok m))
    (hw : w.memory.size ≤ 2 ^ 32) (a : Load α) (hwidth : a.width = s.width) :
    Loads a start { w with memory := m } (.ok (a.decode (s.content w.memory start))) := by
  have hloads := @loads α { w with memory := m } a start (h.size_le hw)
  rwa [Store.read_back a hwidth h.1] at hloads

/-- A memory of at most 2³² bytes is a bounds-checked little-endian store. -/
theorem accesses_bounded (w : World) (hw : w.memory.size ≤ 2 ^ 32) : Bounded w where
  load_ok a start hin := by
    have hloads := loads a start hw
    rwa [Load.run_eq_ok_iff.2 ⟨hin, rfl⟩] at hloads
  load_fault a start hpast := by
    have hloads := loads a start hw
    rwa [Load.run_eq_error_iff.2 ⟨hpast, rfl⟩] at hloads
  store_ok s start hin := by
    have hrun := Store.run_eq_ok_iff.2 ⟨hin, rfl⟩
    have hstores := stores s start hw
    rw [hrun] at hstores
    exact ⟨_, hstores, Store.slice_run hrun, Store.changedWithin hrun⟩
  store_fault s start hpast := by
    have hstores := stores s start hw
    rwa [Store.run_eq_error_iff.2 ⟨hpast, rfl⟩] at hstores
  u16_back word start m h := by
    have hwidth : (Load.slice 2).width = (Store.u16 word).width := rfl
    exact ⟨_, h.loads_back hw (.slice 2) hwidth, Bytes.toNat_ofU16 word⟩
  u32_back word start m h := by
    have hwidth : Load.u32.width = (Store.u32 word).width := rfl
    have hback := h.loads_back hw .u32 hwidth
    rwa [Load.decode, Store.content, Bytes.toU32_ofU32] at hback
  u64_back word start m h := by
    have hwidth : Load.u64.width = (Store.u64 word).width := rfl
    have hback := h.loads_back hw .u64 hwidth
    rwa [Load.decode, Store.content, Bytes.toU64_ofU64] at hback
  load_apart a s start start' m hapart h := by
    have hafter := @loads _ { w with memory := m } a start' (h.size_le hw)
    rw [Store.load_of_apart a hapart h.1] at hafter
    exact ⟨_, loads a start' hw, hafter⟩
  store_apart s s' start start' hapart := by
    have hcomm := Store.after_comm w.memory hapart
    have hother := (ends_storeBoth s' s start' start hw).returns
    rw [← hcomm] at hother
    exact ⟨_, _, _, rfl, hcomm.symm, (ends_storeBoth s s' start start' hw).returns, hother⟩
  list_ok start count hin hcount := by
    obtain ⟨iovs, hread⟩ := Memory.isOk_readIovecs_iff.2 ⟨hin, hcount⟩
    have hlists := lists start count hw
    rw [hread] at hlists
    exact ⟨iovs, hlists, (Memory.readIovecs_eq_ok_iff.1 hread).2⟩
  list_fault start count hnot := by
    have hlists := lists start count hw
    cases hread : w.memory.readIovecs start.toNat count with
    | ok iovs =>
      obtain ⟨⟨hin, hcount⟩, -⟩ := Memory.readIovecs_eq_ok_iff.1 hread
      omega
    | error e => rwa [hread, Memory.readIovecs_error hread] at hlists
  list_back iovs start hin hcount := by
    obtain ⟨m, hwrite, hread⟩ := Memory.readIovecs_write hin hcount
    have hrun : (Store.bytes (iovs.flatMap Iovec.encode)).run w.memory start = .ok m := hwrite
    have hstores := stores (.bytes (iovs.flatMap Iovec.encode)) start hw
    rw [hrun] at hstores
    have hlists := @lists { w with memory := m } start (.ofNat iovs.length) (hstores.size_le hw)
    rw [hread] at hlists
    exact ⟨m, hstores, hlists⟩

/-- A host without arguments or descriptors, and a guest with the largest memory. -/
def fourGiB : World where
  wasi := { args := ⟨[]⟩, env := ⟨[]⟩, table := .empty 0, returnOnExit := false }
  memory := .blank (2 ^ 32)

/-- The last word of the largest memory can be stored and read back; a word that begins one byte
later cannot be stored, and neither can a transfer list of 2³² bytes be read. -/
theorem accesses_bounded_atTop :
    fourGiB.memory.size ≤ 2 ^ 32 ∧
      (∃ m, Stores (.u32 0x01020304) 0xFFFFFFFC fourGiB (.ok m) ∧
        Loads .u32 0xFFFFFFFC { fourGiB with memory := m } (.ok 0x01020304)) ∧
      Stores (.u32 0x01020304) 0xFFFFFFFD fourGiB (.error .fault) ∧
      Lists 0 0x20000000 fourGiB (.error .fault) := by
  have hsize : fourGiB.memory.size = 2 ^ 32 := Memory.size_blank _
  have hbounded := accesses_bounded fourGiB hsize.le
  obtain ⟨m, hstores, -⟩ := hbounded.store_ok (.u32 0x01020304) 0xFFFFFFFC
    (by rw [hsize]; decide)
  exact ⟨hsize.le, ⟨m, hstores, hbounded.u32_back _ _ m hstores⟩,
    hbounded.store_fault (.u32 0x01020304) 0xFFFFFFFD (by rw [hsize]; decide),
    hbounded.list_fault 0 0x20000000 (.inr (by decide))⟩

end Checked

end GuestHost
