import GuestHost.Proofs.Table

/-!
# Tables that keep count

A table in memory does not count its descriptors over and over: it keeps their number, grows when
the number has reached the capacity, and lets each descriptor carry its own number, which a look-up
checks.  `CountedTable` is such a table.  A new descriptor for which it finds no slot has nowhere to
go, so `CountedTable.insert` may have no result.

`Table.counted` is the counted form of a table.  The operations commute with it: `insert_counted`,
`get_counted`, `getMut_counted`, `flush_counted`.  So the number that is kept is always the number
of descriptors, and a new one always finds a slot.
-/

namespace GuestHost

/-- A descriptor that carries its own number. -/
structure NumberedDescriptor extends Descriptor where
  id : UInt32

/-- A table that keeps the number of its descriptors. -/
structure CountedTable where
  slots : List (Option NumberedDescriptor)
  used : Nat

namespace CountedTable

/-- A table with room for the given number of descriptors. -/
def empty (size : Nat) : CountedTable := ⟨List.replicate size none, 0⟩

def capacity (t : CountedTable) : Nat := t.slots.length

/-- The slots with room for a new descriptor: twice as many once the count has reached their
number. -/
def roomy (t : CountedTable) : List (Option NumberedDescriptor) :=
  if t.capacity ≤ t.used then
    t.slots ++ List.replicate (max 1 (2 * t.capacity) - t.capacity) none
  else t.slots

/-- The slot that a new descriptor is put into: the first of the new ones, or the lowest free one.
If there is no free one, it is past the last. -/
def nextSlot (t : CountedTable) : Nat :=
  if t.capacity ≤ t.used then t.capacity
  else (t.slots.findIdx? Option.isNone).getD t.capacity

/-- Adds a descriptor and gives its number, unless its slot is past the last. -/
def insert (t : CountedTable) (d : Descriptor) : Option (UInt32 × CountedTable) :=
  if t.nextSlot < t.roomy.length then
    let id := UInt32.ofNat t.nextSlot
    some (id, ⟨t.roomy.set t.nextSlot (some ⟨d, id⟩), t.used + 1⟩)
  else none

/-- The descriptor that is in a slot and carries its number. -/
def find? (t : CountedTable) (id : UInt32) : Option NumberedDescriptor :=
  (t.slots[id.toNat]?).join.filter fun d => d.id = id

/-- Finds a descriptor that has the given rights. -/
def get (t : CountedTable) (id : UInt32) (base inheriting : Rights) :
    Except Errno NumberedDescriptor :=
  match t.find? id with
  | none => .error .badf
  | some d => if d.allows base inheriting then .ok d else .error .notcapable

/-- Looks up a descriptor to change its stream, and gives the table with any other stream. -/
def getMut (t : CountedTable) (id : UInt32) (base inheriting : Rights) :
    Except Errno (NumberedDescriptor × (Stream → CountedTable)) :=
  match t.find? id with
  | none => .error .badf
  | some d =>
    if d.allows base inheriting then
      .ok (d, fun stream => { t with
        slots := t.slots.set id.toNat (some { d with toDescriptor := d.withStream stream }) })
    else .error .notcapable

/-- Flushes all streams. -/
def flush (t : CountedTable) : CountedTable :=
  { t with
    slots := t.slots.map (Option.map fun d =>
      { d with toDescriptor := d.withStream d.stream.flush.2 }) }

end CountedTable

namespace Table

variable (t : Table)

/-- The descriptor of a slot with the number of the slot. -/
def numbered (i : Nat) (slot : Option Descriptor) : Option NumberedDescriptor :=
  slot.map fun d => ⟨d, UInt32.ofNat i⟩

/-- The counted form of a table. -/
def counted : CountedTable := ⟨t.slots.mapIdx numbered, t.size⟩

@[simp]
theorem capacity_counted : t.counted.capacity = t.capacity := by
  simp [counted, CountedTable.capacity, capacity]

theorem getElem?_counted (i : Nat) :
    t.counted.slots[i]? = t.slots[i]?.map (numbered i) :=
  List.getElem?_mapIdx

/-! ## Inserting -/

/-- The count has reached the capacity exactly if all slots are taken. -/
theorem capacity_le_size_iff : t.capacity ≤ t.size ↔ t.slots.all Option.isSome = true := by
  have hle : t.size ≤ t.capacity := List.countP_le_length
  rw [List.all_eq_true, ← List.countP_eq_length]
  exact ⟨fun h => Nat.le_antisymm hle h, fun h => Nat.le_of_eq h.symm⟩

theorem findIdx?_counted :
    t.counted.slots.findIdx? Option.isNone = t.slots.findIdx? Option.isNone := by
  -- A slot stays free or taken when its descriptor gets a number.
  have hfree : t.counted.slots.map Option.isNone = t.slots.map Option.isNone := by
    apply List.ext_getElem?
    intro i
    rw [List.getElem?_map, List.getElem?_map, getElem?_counted]
    cases t.slots[i]? with
    | none => rfl
    | some slot => cases slot <;> rfl
  have hmap {α : Type} (slots : List (Option α)) :
      slots.findIdx? Option.isNone = (slots.map Option.isNone).findIdx? id := by
    rw [List.findIdx?_map]
    rfl
  rw [hmap, hmap, hfree]

theorem nextSlot_counted : t.counted.nextSlot = t.nextSlot := by
  simp only [CountedTable.nextSlot, capacity_counted, findIdx?_counted, nextSlot]
  split
  · next hfull =>
    have htaken : ∀ slot ∈ t.slots, slot.isNone = false := by
      intro slot hslot
      have hsome := List.all_eq_true.1 (t.capacity_le_size_iff.1 hfull) slot hslot
      simp [Option.isNone_eq_false_iff, hsome]
    rw [List.findIdx?_eq_none_iff.2 htaken]
    rfl
  · rfl

theorem mapIdx_replicate_none (f : Nat → Option Descriptor → Option NumberedDescriptor)
    (hf : ∀ i, f i none = none) (n : Nat) :
    (List.replicate n none).mapIdx f = List.replicate n none := by
  apply List.ext_getElem?
  intro i
  rw [List.getElem?_mapIdx, List.getElem?_replicate, List.getElem?_replicate]
  split
  · rw [Option.map_some, hf]
  · rfl

theorem counted_empty (size : Nat) : (empty size).counted = .empty size := by
  rw [counted, CountedTable.empty, empty, mapIdx_replicate_none _ fun i => rfl]
  simp [Table.size, List.countP_replicate]

theorem roomy_counted : t.counted.roomy = t.roomy.mapIdx numbered := by
  have hfull : t.capacity ≤ t.counted.used ↔ t.slots.all Option.isSome = true :=
    t.capacity_le_size_iff
  simp only [CountedTable.roomy, capacity_counted, hfull, roomy]
  split
  · rw [List.mapIdx_append, mapIdx_replicate_none _ fun i => rfl]
    rfl
  · rfl

theorem getElem?_roomy_nextSlot : t.roomy[t.nextSlot]? = some none := by
  unfold roomy nextSlot
  cases hfind : t.slots.findIdx? Option.isNone with
  | none =>
    have hfull : t.slots.all Option.isSome = true := by
      rw [List.all_eq_true]
      intro slot hslot
      have htaken := List.findIdx?_eq_none_iff.1 hfind slot hslot
      simpa [Option.isNone_eq_false_iff] using htaken
    have hnew : 0 < max 1 (2 * t.slots.length) - t.slots.length := by omega
    rw [if_pos hfull, Option.getD_none, capacity, List.getElem?_append_right (Nat.le_refl _),
      Nat.sub_self, List.getElem?_replicate, if_pos hnew]
  | some i =>
    obtain ⟨hi, hfree, -⟩ := List.findIdx?_eq_some_iff_getElem.1 hfind
    have hnot : ¬ t.slots.all Option.isSome = true := by
      intro hall
      have hsome := List.all_eq_true.1 hall _ (List.getElem_mem hi)
      simp_all
    rw [Option.isNone_iff_eq_none] at hfree
    simp only [hnot, Bool.false_eq_true, if_false, Option.getD_some]
    rw [List.getElem?_eq_getElem hi, hfree]

theorem size_insert (d : Descriptor) : (t.insert d).2.size = t.size + 1 := by
  have hroomy : t.roomy.countP Option.isSome = t.size := by
    simp only [roomy, size]
    split <;> simp [List.countP_replicate]
  have hlt : t.nextSlot < t.roomy.length := t.length_roomy_gt
  -- The slot that the new descriptor takes was free.
  have hslot : t.roomy[t.nextSlot] = none := by
    rw [← Option.some_inj, ← List.getElem?_eq_getElem, getElem?_roomy_nextSlot]
  simp only [insert, size] at hroomy ⊢
  rw [List.countP_set hlt, hslot, hroomy]
  simp

/-- A full table doubles, one without slots gets one. -/
theorem capacity_insert (d : Descriptor) : (t.insert d).2.capacity =
    if t.capacity ≤ t.size then max 1 (2 * t.capacity) else t.capacity := by
  simp only [capacity_le_size_iff]
  simp only [insert, roomy, capacity, List.length_set]
  split
  · rw [List.length_append, List.length_replicate]
    omega
  · rfl

/-- A new descriptor always finds a slot, the same that it takes when nothing is counted. -/
theorem insert_counted (d : Descriptor) :
    t.counted.insert d = some (UInt32.ofNat t.nextSlot, (t.insert d).2.counted) := by
  have hroom : t.counted.nextSlot < t.counted.roomy.length := by
    rw [nextSlot_counted, roomy_counted, List.length_mapIdx]
    exact t.length_roomy_gt
  have hused : t.counted.used + 1 = (t.insert d).2.size := (t.size_insert d).symm
  rw [CountedTable.insert, if_pos hroom, hused, nextSlot_counted, roomy_counted]
  simp only [counted, insert, List.mapIdx_set]
  rfl

/-! ## Looking up -/

/-- The number that a descriptor carries is that of its slot, as long as it is a 32-bit number. -/
theorem find?_counted (id : UInt32) :
    t.counted.find? id = (t.get? id.toNat).map fun d => ⟨d, id⟩ := by
  rw [CountedTable.find?, getElem?_counted, get?]
  cases t.slots[id.toNat]? with
  | none => rfl
  | some slot => cases slot <;> simp [numbered]

theorem get_counted (id : UInt32) (base inheriting : Rights) :
    t.counted.get id base inheriting =
      (t.lookup id.toNat base inheriting).map fun d => ⟨d, id⟩ := by
  rw [CountedTable.get, find?_counted, lookup]
  cases t.get? id.toNat with
  | none => rfl
  | some d =>
    simp only [Option.map_some]
    split <;> rfl

theorem getMut_counted (id : UInt32) (base inheriting : Rights) :
    t.counted.getMut id base inheriting =
      (t.lookup id.toNat base inheriting).map fun d =>
        (⟨d, id⟩, fun stream => (t.setStream id.toNat stream).counted) := by
  rw [CountedTable.getMut, find?_counted, lookup]
  cases hget : t.get? id.toNat with
  | none => rfl
  | some d =>
    have hslot : t.slots[id.toNat]? = some (some d) := Option.join_eq_some_iff.1 hget
    have hset (stream : Stream) : (⟨t.counted.slots.set id.toNat
        (some ⟨d.withStream stream, id⟩), t.counted.used⟩ : CountedTable) =
          (t.setStream id.toNat stream).counted := by
      rw [counted, counted, size_setStream, CountedTable.mk.injEq]
      refine ⟨List.ext_getElem? fun i => ?_, rfl⟩
      rw [List.getElem?_set, List.getElem?_mapIdx, List.getElem?_mapIdx, setStream,
        List.getElem?_modify, List.length_mapIdx]
      split
      · next hi =>
        subst hi
        have hlt : id.toNat < t.slots.length := (List.getElem?_eq_some_iff.1 hslot).1
        rw [if_pos hlt, hslot]
        simp [numbered]
      · simp
    simp only [Option.map_some]
    split
    · simp only [hset]
      rfl
    · rfl

theorem flush_counted : t.counted.flush = t.flush.2.counted := by
  rw [flush_eq]
  simp only [CountedTable.flush, counted, size_emptied, CountedTable.mk.injEq, and_true]
  apply List.ext_getElem?
  intro i
  rw [List.getElem?_map, List.getElem?_mapIdx, List.getElem?_mapIdx, emptied, List.getElem?_map]
  cases t.slots[i]? with
  | none => rfl
  | some slot => cases slot <;> simp [numbered, Stream.flush_eq]

end Table

end GuestHost
