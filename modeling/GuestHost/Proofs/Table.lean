import GuestHost.Proofs.Stream
import GuestHost.Wasi

/-!
# What changes in a descriptor table

A change of a stream stays in its slot, `lookup_setStream` and `setStream_comm`, and a flush takes
nothing but the incomplete lines, `flush_eq` and `get?_emptied`.  The descriptors of a table that
was built up by insertions fill its first slots, `insert_ofList`, so a newly built state has
exactly the three standard streams, `Wasi.ofConfig_over`.
-/

namespace GuestHost

/-! ## Flushing -/

namespace Stream

/-- The incomplete line that a flush emits, if there is one. -/
def tail? : Stream → Option Emission
  | .output o => if o.pending = [] then none else some (o.emission o.pending)
  | .input _ | .file _ => none

/-- The stream without its incomplete line. -/
def emptied : Stream → Stream
  | .output o => .output { o with pending := [] }
  | stream => stream

theorem flush_eq (stream : Stream) : stream.flush = (stream.tail?.toList, stream.emptied) := by
  cases stream with
  | input i => rfl
  | file f => rfl
  | output o =>
    rcases o with ⟨sink, pending⟩
    cases pending <;> rfl

end Stream

namespace Table

variable {t : Table} {id : Nat} {d : Descriptor}

/-- The incomplete lines of all outputs, in the order of the descriptors. -/
def tails (t : Table) : List Emission :=
  t.slots.filterMap fun slot => slot.bind fun d => d.stream.tail?

/-- The table without these lines. -/
def emptied (t : Table) : Table :=
  ⟨t.slots.map (Option.map fun d => d.withStream d.stream.emptied)⟩

theorem flush_eq (t : Table) : t.flush = (t.tails, t.emptied) := by
  rcases t with ⟨slots⟩
  simp only [flush, tails, emptied, Stream.flush_eq, Prod.mk.injEq, and_true]
  induction slots with
  | nil => rfl
  | cons slot slots ih =>
    rw [List.flatMap_cons, ih]
    cases slot with
    | none => rfl
    | some d =>
      simp only [Option.map_some, Option.getD_some]
      cases htail : d.stream.tail? <;> simp [htail]

theorem get?_emptied (t : Table) (id : Nat) :
    t.emptied.get? id = (t.get? id).map fun d => d.withStream d.stream.emptied := by
  simp only [emptied, get?, List.getElem?_map]
  cases t.slots[id]? <;> rfl

@[simp]
theorem capacity_emptied (t : Table) : t.emptied.capacity = t.capacity := by
  simp [emptied, capacity]

@[simp]
theorem size_emptied (t : Table) : t.emptied.size = t.size := by
  simp [emptied, size, List.countP_map, Function.comp_def]

/-! ## Changing a stream -/

variable {i j : Nat} {a b : Stream}

@[simp]
theorem capacity_setStream (t : Table) (i : Nat) (a : Stream) :
    (t.setStream i a).capacity = t.capacity := by
  simp [setStream, capacity]

@[simp]
theorem size_setStream (t : Table) (i : Nat) (a : Stream) : (t.setStream i a).size = t.size := by
  rcases t with ⟨slots⟩
  simp only [setStream, size]
  induction slots generalizing i with
  | nil => simp
  | cons slot slots ih =>
    cases i with
    | zero => cases slot <;> simp
    | succ i => simp [List.countP_cons, ih]

theorem setStream_setStream (t : Table) (i : Nat) (a b : Stream) :
    (t.setStream i a).setStream i b = t.setStream i b := by
  rcases t with ⟨slots⟩
  simp only [setStream, mk.injEq, List.modify_modify_eq, Function.comp_def, Option.map_map]
  rfl

theorem setStream_comm (t : Table) (h : i ≠ j) (a b : Stream) :
    (t.setStream i a).setStream j b = (t.setStream j b).setStream i a := by
  rcases t with ⟨slots⟩
  simp only [setStream, mk.injEq]
  exact List.modify_modify_ne _ _ _ h

/-- A change of a stream does not show in a flush if the incomplete line is the same. -/
theorem tails_setStream {d : Descriptor} (hd : t.get? i = some d)
    (htail : a.tail? = d.stream.tail?) : (t.setStream i a).tails = t.tails := by
  have hslots : (t.setStream i a).slots.map (fun slot => slot.bind fun d => d.stream.tail?) =
      t.slots.map fun slot => slot.bind fun d => d.stream.tail? := by
    apply List.ext_getElem?
    intro j
    simp only [setStream, List.getElem?_map, List.getElem?_modify]
    split
    · next hij =>
      subst hij
      have hslot : t.slots[i]? = some (some d) := Option.join_eq_some_iff.1 hd
      simp [hslot, Descriptor.withStream, htail]
    · rw [id_map']
  have htails (t : Table) : t.tails =
      (t.slots.map fun slot => slot.bind fun d => d.stream.tail?).filterMap id := by
    rw [List.filterMap_map]
    rfl
  rw [htails, htails, hslots]

theorem emptied_setStream (t : Table) (i : Nat) (a : Stream) :
    (t.setStream i a).emptied = t.emptied.setStream i a.emptied := by
  rcases t with ⟨slots⟩
  simp only [setStream, emptied, mk.injEq]
  apply List.ext_getElem?
  intro j
  simp only [List.getElem?_map, List.getElem?_modify]
  cases slots[j]? with
  | none => rfl
  | some slot =>
    split
    · cases slot <;> rfl
    · rfl

/-- What may be done with a descriptor does not depend on its stream. -/
theorem lookup_setStream (t : Table) (i id : Nat) (a : Stream) (base inheriting : Rights) :
    (t.setStream i a).lookup id base inheriting =
      if id = i then (t.lookup id base inheriting).map (·.withStream a)
      else t.lookup id base inheriting := by
  by_cases h : id = i
  · subst h
    simp only [lookup, get?_setStream, if_true]
    cases t.get? id with
    | none => rfl
    | some d =>
      simp only [Option.map_some]
      change (if d.allows base inheriting then _ else _) = _
      split <;> rfl
  · simp only [lookup, get?_setStream, h, if_false]

theorem lookup_of_allows {base inheriting : Rights} (hd : t.get? id = some d)
    (h : d.allows base inheriting = true) : t.lookup id base inheriting = .ok d := by
  simp only [lookup, hd, h, if_true]

/-! ## Building up a table -/

/-- The table whose first slots hold the given descriptors, with free slots after them. -/
def ofList (ds : List Descriptor) (free : Nat) : Table :=
  ⟨ds.map some ++ List.replicate free none⟩

variable {ds : List Descriptor} {free : Nat}

theorem get?_ofList (ds : List Descriptor) (free id : Nat) :
    (ofList ds free).get? id = ds[id]? := by
  simp only [get?, ofList, List.getElem?_append, List.length_map, List.getElem?_map,
    List.getElem?_replicate]
  split
  · next h => simp [h]
  · next h =>
    rw [List.getElem?_eq_none (Nat.not_lt.1 h)]
    split <;> rfl

theorem nextSlot_ofList (ds : List Descriptor) (free : Nat) :
    (ofList ds free).nextSlot = ds.length := by
  have hnone : (ds.map some).findIdx? Option.isNone = none := by
    simp [List.findIdx?_eq_none_iff]
  rw [nextSlot, ofList, List.findIdx?_append, hnone]
  cases free with
  | zero => simp [capacity]
  | succ free => simp [List.replicate_succ, List.findIdx?_cons]

/-- There is always a free slot after the descriptors once there is to be room for one more. -/
theorem roomy_ofList (ds : List Descriptor) (free : Nat) :
    ∃ rest, (ofList ds free).roomy = ds.map some ++ none :: List.replicate rest none := by
  cases free with
  | zero =>
    have hrest : max 1 (2 * ds.length) - ds.length = max 1 (2 * ds.length) - ds.length - 1 + 1 := by
      omega
    refine ⟨max 1 (2 * ds.length) - ds.length - 1, ?_⟩
    rw [← List.replicate_succ, ← hrest]
    simp [roomy, ofList, capacity]
  | succ free => exact ⟨free, by simp [roomy, ofList, List.replicate_succ]⟩

/-- A new descriptor goes after those that are there. -/
theorem insert_ofList (ds : List Descriptor) (free : Nat) (d : Descriptor) :
    ∃ rest, (ofList ds free).insert d = (ds.length, ofList (ds ++ [d]) rest) := by
  obtain ⟨rest, hrest⟩ := roomy_ofList ds free
  refine ⟨rest, ?_⟩
  rw [insert, nextSlot_ofList, hrest]
  simp [ofList]

theorem insertStandard_ofList (ds : List Descriptor) (s : StandardStream)
    (hds : ds.length = s.slot) (free : Nat) (fd : UInt32) (stream : Stream) :
    ∃ rest, (ofList ds free).insertStandard s fd stream =
      (none, ofList (ds ++ [.standard s fd stream]) rest) := by
  obtain ⟨rest, hrest⟩ := insert_ofList ds free (.standard s fd stream)
  refine ⟨rest, ?_⟩
  rw [insertStandard, hrest, hds]
  simp

/-- The descriptors of the standard streams. -/
def standards (fds : StandardFds) (streams : StandardStreams) : List Descriptor :=
  [.standard .stdin fds.stdin streams.stdin, .standard .stdout fds.stdout streams.stdout,
    .standard .stderr fds.stderr streams.stderr]

/-- The standard streams find their slots in an empty table of any size. -/
theorem insertStandards_empty (size : Nat) (fds : StandardFds) (streams : StandardStreams) :
    ∃ free, (empty size).insertStandards fds streams =
      (none, ofList (standards fds streams) free) := by
  obtain ⟨free₀, h₀⟩ := insertStandard_ofList [] .stdin rfl size fds.stdin streams.stdin
  obtain ⟨free₁, h₁⟩ := insertStandard_ofList [.standard .stdin fds.stdin streams.stdin] .stdout
    rfl free₀ fds.stdout streams.stdout
  obtain ⟨free₂, h₂⟩ := insertStandard_ofList
    [.standard .stdin fds.stdin streams.stdin, .standard .stdout fds.stdout streams.stdout] .stderr
    rfl free₁ fds.stderr streams.stderr
  have hempty : empty size = ofList [] size := rfl
  simp only [List.nil_append, List.cons_append] at h₀ h₁ h₂
  exact ⟨free₂, by simp only [insertStandards, hempty, h₀, h₁, h₂, standards]⟩

theorem tails_ofList (ds : List Descriptor) (free : Nat) :
    (ofList ds free).tails = ds.filterMap fun d => d.stream.tail? := by
  simp only [tails, ofList, List.filterMap_append, List.filterMap_map, Function.comp_def,
    Option.bind_some]
  simp

theorem setStream_ofList (ds : List Descriptor) (free id : Nat) (stream : Stream) :
    (ofList ds free).setStream id stream = ofList (ds.modify id (·.withStream stream)) free := by
  simp only [setStream, ofList, mk.injEq]
  apply List.ext_getElem?
  intro j
  simp only [List.getElem?_modify, List.getElem?_append, List.length_map, List.getElem?_map,
    List.length_modify, List.getElem?_replicate]
  by_cases hj : j < ds.length
  · simp only [hj, if_true, List.getElem?_eq_getElem, Option.map_some]
    split <;> rfl
  · simp only [hj, if_false]
    split <;> simp

end Table

namespace Wasi

theorem flush_eq (s : Wasi) :
    s.flush = { s with table := s.table.emptied }.emit s.table.tails := by
  rw [flush, Table.flush_eq]

/-- A newly built state has exactly the three standard streams. -/
theorem ofConfig_over (c : Config) (streams : Table.StandardStreams) :
    ∃ s free, ofConfig c streams = .ok s ∧ s.emitted = [] ∧
      s.table = .ofList (Table.standards c.stdio streams) free := by
  obtain ⟨free, hfree⟩ := Table.insertStandards_empty c.tableSize.toNat c.stdio streams
  exact ⟨_, free, by rw [ofConfig, hfree], rfl, rfl⟩

end Wasi

end GuestHost
