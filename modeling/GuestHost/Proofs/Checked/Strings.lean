import GuestHost.Proofs.Checked
import GuestHost.Proofs.Wasi.Strings

/-!
# Strings, word by word

The number of the entries, the size of their block and the offset of each entry are words.  If the
entries fit the words of a guest, then storing them comes to what `StringBlock.storeSizes` and
`StringBlock.store` say, and no address wraps around: array and block were both found to lie inside
the memory before anything is stored.
-/

namespace GuestHost

namespace Checked

variable {w : World}

/-! ## Strings -/

section Strings

variable {x y : UInt32}

/-- Stores the number of entries and the size of the block. -/
def storeSizes (b : StringBlock) (countPtr sizePtr : UInt32) : Checked Unit :=
  if countPtr = 0 || sizePtr = 0 then fail .inval
  else do
    let _ ← slice countPtr 4
    let _ ← slice sizePtr 4
    writeU32 countPtr (.ofNat b.count)
    writeU32 sizePtr (.ofNat b.bytes.length)

/-- Stores the addresses of the entries from number `i` on, one word after the other. -/
def storePointers (ptrs buf : UInt32) : (i : Nat) → List UInt32 → Checked Unit
  | _, [] => pure ()
  | i, offset :: rest => do
    let place ← element ptrs i 4
    let address ← add buf offset
    writeU32 place address
    storePointers ptrs buf (i + 1) rest

/-- Stores the addresses of the entries and then the block. -/
def store (b : StringBlock) (ptrs buf : UInt32) : Checked Unit :=
  if ptrs = 0 || buf = 0 then fail .inval
  else do
    let len ← mul (.ofNat b.count) 4
    let _ ← slice ptrs len
    let _ ← slice buf (.ofNat b.bytes.length)
    storePointers ptrs buf 0 ((StringBlock.offsets 0 b.entries).map .ofNat)
    write buf b.bytes

/-- The world after a store that may have failed. -/
def stored (w : World) (outcome : Except Errno Memory) : World :=
  match outcome with
  | .ok m => { w with memory := m }
  | .error _ => w

theorem stored_overlay_overlay (w : World) (start start' : Nat) (bs bs' : Bytes) :
    stored w (.ok ((w.memory.overlay start bs).overlay start' bs')) =
      (w.overlay start bs).overlay start' bs' := rfl

theorem ends_slice_of_inBounds {start len : UInt32} {n : Nat} (hlen : len.toNat = n)
    (hw : w.memory.size ≤ 2 ^ 32) (h : w.memory.InBounds start.toNat n) :
    Ends (slice start len) w (.ok (w.memory.slice start.toNat n)) w := by
  subst hlen
  have hslice := ends_slice start len hw
  rwa [Memory.read, if_pos h] at hslice

theorem ends_slice_fault {start len : UInt32} {n : Nat} (hlen : len.toNat = n)
    (hw : w.memory.size ≤ 2 ^ 32) (h : ¬ w.memory.InBounds start.toNat n) :
    Ends (slice start len) w (.error .fault) w := by
  subst hlen
  have hslice := ends_slice start len hw
  rwa [Memory.read, if_neg h] at hslice

theorem ends_writeU32 {start word : UInt32} (hw : w.memory.size ≤ 2 ^ 32)
    (h : w.memory.InBounds start.toNat 4) :
    Ends (writeU32 start word) w (.ok ()) (w.overlay start.toNat (.ofU32 word)) :=
  ends_write (by rwa [Bytes.length_ofU32]) hw

theorem ends_storeSizes (b : StringBlock) (x y : UInt32) (hw : w.memory.size ≤ 2 ^ 32) :
    Ends (storeSizes b x y) w ((b.storeSizes w.memory x y).map fun _ => ())
      (stored w (b.storeSizes w.memory x y)) := by
  by_cases hnull : (x = 0 || y = 0) = true
  · have hrefused : b.storeSizes w.memory x y = .error .inval := by
      simp only [StringBlock.storeSizes, hnull, if_true]
      rfl
    rw [storeSizes, if_pos hnull, hrefused]
    exact ends_fail _ w
  · have hx : x ≠ 0 := fun h => hnull (by simp [h])
    have hy : y ≠ 0 := fun h => hnull (by simp [h])
    have hfour : (4 : UInt32).toNat = 4 := rfl
    rw [storeSizes, if_neg hnull, StringBlock.storeSizes_eq b.entries w.memory hx hy,
      ← StringBlock.length_bytes_eq_room]
    by_cases h : w.memory.InBounds x.toNat 4
    · refine (ends_slice_of_inBounds hfour hw h).bind ?_
      by_cases h' : w.memory.InBounds y.toNat 4
      · rw [if_pos ⟨h, h'⟩]
        have hfirst := @ends_writeU32 w x (.ofNat b.count) hw h
        have hsecond := @ends_writeU32 _ y (.ofNat b.bytes.length) (hfirst.size_le hw)
          (h'.of_size hfirst.size)
        rw [stored_overlay_overlay]
        exact (ends_slice_of_inBounds hfour hw h').bind (hfirst.bind hsecond)
      · rw [if_neg fun hboth => h' hboth.2]
        exact (ends_slice_fault hfour hw h').bind_error
    · rw [if_neg fun hboth => h hboth.1]
      exact (ends_slice_fault hfour hw h).bind_error

/-- A write, as the outcome of `Memory.write`. -/
theorem ends_write_stored (start : UInt32) (bs : Bytes) (hw : w.memory.size ≤ 2 ^ 32) :
    Ends (write start bs) w ((w.memory.write start.toNat bs).map fun _ => ())
      (stored w (w.memory.write start.toNat bs)) := by
  by_cases h : w.memory.InBounds start.toNat bs.length
  · rw [Memory.write_of_inBounds h]
    exact ends_write h hw
  · rw [Memory.write_of_not_inBounds h]
    exact ends_write_fault h

/-- The addresses are stored one after the other, up to the first that has no room.  The induction
is on the offsets that are left; by what is assumed no address wraps around, and neither does what
is stored. -/
theorem ends_storePointers {ptrs buf : UInt32} {i : Nat} {offsets : List UInt32}
    (hw : w.memory.size ≤ 2 ^ 32) (hptrs : ptrs.toNat + 4 * (i + offsets.length) ≤ 2 ^ 32)
    (hbuf : ∀ offset ∈ offsets, buf.toNat + offset.toNat < 2 ^ 32) :
    Ends (storePointers ptrs buf i offsets) w
      (StringBlock.storePointers ptrs buf i offsets w.memory).1
      { w with memory := (StringBlock.storePointers ptrs buf i offsets w.memory).2 } := by
  induction offsets generalizing w i with
  | nil => exact ends_pure _ w
  | cons offset rest ih =>
    obtain ⟨hoffset, hrest⟩ := List.forall_mem_cons.1 hbuf
    rw [List.length_cons] at hptrs
    have hindex : i * (4 : UInt32).toNat = 4 * i := Nat.mul_comm i 4
    obtain ⟨-, helement⟩ := @ends_element ptrs 4 i (by omega) (by omega) w
    obtain ⟨-, hadd⟩ := @ends_add buf offset hoffset w
    have hwrite := ends_write_stored (ptrs + .ofNat i * 4) (.ofU32 (buf + offset)) hw
    rw [StringBlock.storePointers, Memory.writeU32]
    cases hplace : w.memory.write (ptrs + .ofNat i * 4).toNat (.ofU32 (buf + offset)) with
    | error e =>
      rw [hplace] at hwrite
      exact helement.bind <| hadd.bind hwrite.bind_error
    | ok m =>
      rw [hplace] at hwrite
      have hothers := ih (w := { w with memory := m }) (i := i + 1) (hwrite.size_le hw) (by omega)
        hrest
      exact helement.bind <| hadd.bind <| hwrite.bind hothers

/-- What is stored once the array and the block were found to have room. -/
theorem ends_storeEntries {b : StringBlock} (hcheck : b.checkRoom w.memory x y = .ok ())
    (hw : w.memory.size ≤ 2 ^ 32) (harray : w.memory.InBounds x.toNat (4 * b.entries.length))
    (hblock : w.memory.InBounds y.toNat (StringBlock.room b.entries)) :
    Ends (do storePointers x y 0 ((StringBlock.offsets 0 b.entries).map .ofNat); write y b.bytes)
      w (b.store w.memory x y).1 { w with memory := (b.store w.memory x y).2 } := by
  have hend : x.toNat + 4 * b.entries.length ≤ w.memory.size := harray
  have hend' : y.toNat + StringBlock.room b.entries ≤ w.memory.size := hblock
  have hbuf : ∀ offset ∈ (StringBlock.offsets 0 b.entries).map .ofNat,
      y.toNat + (offset : UInt32).toNat < 2 ^ 32 := by
    intro word hword
    obtain ⟨offset, hoffset, rfl⟩ := List.mem_map.1 hword
    have hlt := StringBlock.lt_of_mem_offsets hoffset
    have hmod : (UInt32.ofNat offset).toNat ≤ offset := Nat.mod_le _ _
    omega
  have hptrs : x.toNat + 4 * (0 + ((StringBlock.offsets 0 b.entries).map
      UInt32.ofNat).length) ≤ 2 ^ 32 := by
    rw [List.length_map, StringBlock.length_offsets]
    omega
  have hfirst := ends_storePointers hw hptrs hbuf
  rw [StringBlock.store, hcheck]
  dsimp only
  generalize StringBlock.storePointers x y 0 _ w.memory = outcome at hfirst ⊢
  rcases outcome with ⟨e | _, m⟩
  · exact hfirst.bind_error
  · have hsecond := ends_write_stored y b.bytes (hfirst.size_le hw)
    dsimp only at hsecond ⊢
    refine hfirst.bind ?_
    cases hwrite : m.write y.toNat b.bytes with
    | error e => rwa [hwrite] at hsecond
    | ok m' => rwa [hwrite] at hsecond

theorem ends_store {b : StringBlock} (x y : UInt32) (hfits : StringBlock.Fits b.entries)
    (hw : w.memory.size ≤ 2 ^ 32) :
    Ends (store b x y) w (b.store w.memory x y).1
      { w with memory := (b.store w.memory x y).2 } := by
  by_cases hnull : (x = 0 || y = 0) = true
  · rw [store, if_pos hnull, StringBlock.store_null b w.memory hnull]
    exact ends_fail _ w
  · have hx : x ≠ 0 := fun h => hnull (by simp [h])
    have hy : y ≠ 0 := fun h => hnull (by simp [h])
    have harray := hfits.array
    have hcount : (UInt32.ofNat b.count).toNat = b.entries.length :=
      UInt32.toNat_ofNat_of_lt (by change b.entries.length < 2 ^ 32; omega)
    have hroom : (UInt32.ofNat b.bytes.length).toNat = StringBlock.room b.entries := by
      rw [StringBlock.length_bytes_eq_room]
      exact UInt32.toNat_ofNat_of_lt hfits.room
    have hfour : (4 : UInt32).toNat = 4 := rfl
    obtain ⟨hlen, hmul⟩ := @ends_mul (.ofNat b.count) 4 (by rw [hcount, hfour]; omega) w
    rw [hcount, hfour, Nat.mul_comm] at hlen
    have hcheck := StringBlock.checkRoom_eq hx hy w.memory hfits
    rw [store, if_neg hnull]
    refine hmul.bind ?_
    by_cases h : w.memory.InBounds x.toNat (4 * b.entries.length)
    · refine (ends_slice_of_inBounds hlen hw h).bind ?_
      by_cases h' : w.memory.InBounds y.toNat (StringBlock.room b.entries)
      · rw [if_pos ⟨h, h'⟩] at hcheck
        exact (ends_slice_of_inBounds hroom hw h').bind (ends_storeEntries hcheck hw h h')
      · rw [if_neg fun hboth => h' hboth.2] at hcheck
        rw [StringBlock.store, hcheck]
        exact (ends_slice_fault hroom hw h').bind_error
    · rw [if_neg fun hboth => h hboth.1] at hcheck
      rw [StringBlock.store, hcheck]
      exact (ends_slice_fault hlen hw h).bind_error

end Strings

end Checked

end GuestHost
