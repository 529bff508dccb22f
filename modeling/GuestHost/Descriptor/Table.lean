import GuestHost.Descriptor

/-!
# Descriptor tables

A table is a list of slots; a descriptor's number is the place of its slot.  A new descriptor takes
the lowest free slot, and a full table doubles.  Descriptors are never removed, so a number keeps
its meaning.  Looking a descriptor up names the rights that the use of it needs.

Numbers are natural numbers here, and there is memory for any table.  Where numbers are words and
memory is not to be had for every table, `CountedTable` tells what becomes of a table.
-/

namespace GuestHost

/-- A table of descriptors. -/
structure Table where
  slots : List (Option Descriptor)
  deriving Repr, Inhabited

namespace Table

/-- A table of `size` free slots. -/
def empty (size : Nat) : Table := ⟨List.replicate size none⟩

/-- The number of slots. -/
def capacity (t : Table) : Nat := t.slots.length

/-- The number of descriptors. -/
def size (t : Table) : Nat := t.slots.countP Option.isSome

/-- The descriptor with the given number. -/
def get? (t : Table) (id : Nat) : Option Descriptor := (t.slots[id]?).join

/-- The descriptors with their numbers, in order. -/
def toList (t : Table) : List (Nat × Descriptor) :=
  t.slots.zipIdx.filterMap fun (slot, id) => slot.map fun d => (id, d)

/-- The slot that a new descriptor takes: the lowest free one, or the first after the last. -/
def nextSlot (t : Table) : Nat := (t.slots.findIdx? Option.isNone).getD t.capacity

/-- The slots with room for a new descriptor: twice as many when all are taken. -/
def roomy (t : Table) : List (Option Descriptor) :=
  if t.slots.all Option.isSome then
    t.slots ++ List.replicate (max 1 (2 * t.capacity) - t.capacity) none
  else t.slots

/-- Adds a descriptor and gives its number. -/
def insert (t : Table) (d : Descriptor) : Nat × Table :=
  (t.nextSlot, ⟨t.roomy.set t.nextSlot (some d)⟩)

/-- Adds a file held in memory.  It stands in for the host descriptor whose number is the capacity
of the table before. -/
def insertFile (t : Table) (name : String) (contents : Bytes) (mode : AccessMode) : Nat × Table :=
  t.insert (.file (UInt32.ofNat t.capacity) name contents mode)

/-- Looks up a descriptor to use it in a way that needs the given rights. -/
def lookup (t : Table) (id : Nat) (base inheriting : Rights := .none) : Except Errno Descriptor :=
  match t.get? id with
  | none => .error .badf
  | some d => if d.allows base inheriting then .ok d else .error .notcapable

/-- The table with another stream behind a descriptor. -/
def setStream (t : Table) (id : Nat) (stream : Stream) : Table :=
  ⟨t.slots.modify id (Option.map fun d => d.withStream stream)⟩

/-- Emits the incomplete lines of all outputs, in the order of the descriptors. -/
def flush (t : Table) : List Emission × Table :=
  (t.slots.flatMap fun slot => (slot.map fun d => d.stream.flush.1).getD [],
    ⟨t.slots.map (Option.map fun d => d.withStream d.stream.flush.2)⟩)

/-- A standard stream that was added at the wrong place. -/
structure Misplaced where
  stream : StandardStream
  actual : Nat
  deriving DecidableEq, Repr

/-- Adds a standard stream, which must take the slot fixed for it.  A misplaced one stays. -/
def insertStandard (t : Table) (s : StandardStream) (fd : UInt32) (stream : Stream) :
    Option Misplaced × Table :=
  let (id, t) := t.insert (.standard s fd stream)
  (if id = s.slot then none else some ⟨s, id⟩, t)

/-- The streams that a guest starts with. -/
structure StandardStreams where
  stdin : Stream
  stdout : Stream
  stderr : Stream

/-- The standard streams over a line source and two sinks. -/
def StandardStreams.over (source : LineSource) (stdout stderr : Sink) : StandardStreams where
  stdin := .input { source }
  stdout := .output { sink := stdout }
  stderr := .output { sink := stderr }

/-- Adds the three standard streams, up to the first misplaced one. -/
def insertStandards (t : Table) (fds : StandardFds) (streams : StandardStreams) :
    Option Misplaced × Table :=
  match t.insertStandard .stdin fds.stdin streams.stdin with
  | (some m, t) => (some m, t)
  | (none, t) =>
    match t.insertStandard .stdout fds.stdout streams.stdout with
    | (some m, t) => (some m, t)
    | (none, t) => t.insertStandard .stderr fds.stderr streams.stderr

/-! ## What inserting does -/

theorem length_roomy_gt (t : Table) : t.nextSlot < t.roomy.length := by
  unfold nextSlot roomy
  by_cases h : t.slots.all Option.isSome
  · have hnone : t.slots.findIdx? Option.isNone = none := by
      rw [List.findIdx?_eq_none_iff]
      intro x hx
      have hsome := List.all_eq_true.1 h x hx
      cases x with
      | none => simp at hsome
      | some d => rfl
    simp only [h, if_true, hnone, Option.getD_none, List.length_append, List.length_replicate,
      capacity]
    omega
  · simp only [h, Bool.false_eq_true, if_false]
    cases hfind : t.slots.findIdx? Option.isNone with
    | none =>
      rw [List.findIdx?_eq_none_iff] at hfind
      exfalso
      apply h
      rw [List.all_eq_true]
      intro x hx
      have hnone := hfind x hx
      cases x with
      | none => simp at hnone
      | some d => rfl
    | some i =>
      simp only [Option.getD_some]
      exact (List.findIdx?_eq_some_iff_getElem.1 hfind).1

/-- A descriptor is found under the number that inserting it gave. -/
theorem get?_insert_self (t : Table) (d : Descriptor) :
    (t.insert d).2.get? (t.insert d).1 = some d := by
  simp [insert, get?, length_roomy_gt]

end Table

end GuestHost
