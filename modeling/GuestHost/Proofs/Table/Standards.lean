import GuestHost.Proofs.Stream.File
import GuestHost.Proofs.Table.History

/-!
# The places of the standard streams

The three standard streams are added to a table one after the other, and each must get the number of
its slot.  `CountedTable.install` does so with numbers of 32 bits.  It has no result if the slots
that the table needs cannot be allocated.

In a table that has no descriptors yet the standard streams get the first three slots, whatever the
capacity.  In any other table the first of them comes after all descriptors: it stays there, and the
other two are not added.  `CountedTable.install_history` says so of every table of fewer than 2³²
descriptors that was built up by operations, and that a configuration describes a state if its table
can be allocated.
-/

namespace GuestHost

/-! ## Tables that are allocated -/

namespace CountedTable

/-- Slots of `width` bytes each can be held at once. -/
def Allocates (width slots : Nat) : Prop := slots * width ≤ File.largest

theorem Allocates.mono {width slots slots' : Nat} (h : Allocates width slots)
    (hle : slots' ≤ slots) : Allocates width slots' :=
  Nat.le_trans (Nat.mul_le_mul_right width hle) h

instance (width slots : Nat) : Decidable (Allocates width slots) :=
  inferInstanceAs (Decidable (_ ≤ _))

/-- A standard stream that got another number than that of its slot. -/
structure Mismatch where
  name : String
  expected : UInt32
  actual : UInt32
  deriving DecidableEq, Repr

/-- A table of free slots, if they can be allocated. -/
def allocate (width size : Nat) : Option CountedTable :=
  if Allocates width size then some (empty size) else none

/-- Adds a descriptor, if the slots that the table needs for it can be allocated. -/
def insertAllocated (width : Nat) (t : CountedTable) (d : Descriptor) :
    Option (UInt32 × CountedTable) :=
  if Allocates width t.roomy.length then t.insert d else none

/-- Adds a standard stream, which must get the number of its slot.  It stays if it does not. -/
def installOne (width : Nat) (t : CountedTable) (s : StandardStream) (fd : UInt32)
    (stream : Stream) : Option (Option Mismatch × CountedTable) := do
  let (id, t) ← t.insertAllocated width (.standard s fd stream)
  let expected := UInt32.ofNat s.slot
  some (if id = expected then none else some ⟨s.name, expected, id⟩, t)

/-- Adds the three standard streams, up to the first that gets another number than that of its
slot. -/
def install (width : Nat) (t : CountedTable) (fds : StandardFds) (streams : Table.StandardStreams) :
    Option (Option Mismatch × CountedTable) := do
  match ← t.installOne width .stdin fds.stdin streams.stdin with
  | (some m, t) => some (some m, t)
  | (none, t) =>
    match ← t.installOne width .stdout fds.stdout streams.stdout with
    | (some m, t) => some (some m, t)
    | (none, t) => t.installOne width .stderr fds.stderr streams.stderr

/-- A new table with the standard streams. -/
def withStandards (width size : Nat) (fds : StandardFds) (streams : Table.StandardStreams) :
    Option (Option Mismatch × CountedTable) := do
  let t ← allocate width size
  t.install width fds streams

end CountedTable

namespace Table

/-- How a misplaced standard stream is reported. -/
def Misplaced.mismatch (m : Misplaced) : CountedTable.Mismatch :=
  ⟨m.stream.name, UInt32.ofNat m.stream.slot, UInt32.ofNat m.actual⟩

variable {ds : List Descriptor} {free : Nat} {width : Nat}

/-! ## One standard stream -/

theorem capacity_insert_eq (t : Table) (d : Descriptor) :
    (t.insert d).2.capacity = t.roomy.length := by
  rw [insert, capacity, List.length_set]

theorem length_roomy_ofList (ds : List Descriptor) (free : Nat) :
    (ofList ds free).roomy.length =
      if free = 0 then max 1 (2 * ds.length) else ds.length + free := by
  rw [← capacity_insert_eq _ default, capacity_insert, capacity_ofList, size_ofList]
  split <;> split <;> omega

/-- Numbers of 32 bits make no difference as long as they fit, nor do slots that are allocated. -/
theorem installOne_counted (t : Table) (hfew : t.nextSlot < 2 ^ 32)
    (halloc : CountedTable.Allocates width t.roomy.length) (s : StandardStream) (fd : UInt32)
    (stream : Stream) :
    t.counted.installOne width s fd stream =
      some ((t.insertStandard s fd stream).1.map Misplaced.mismatch,
        (t.insertStandard s fd stream).2.counted) := by
  have hcounted : t.counted.insertAllocated width (.standard s fd stream) =
      some (UInt32.ofNat t.nextSlot, (t.insert (.standard s fd stream)).2.counted) := by
    rw [CountedTable.insertAllocated, roomy_counted, List.length_mapIdx, if_pos halloc,
      insert_counted]
  have hid : (t.insert (.standard s fd stream)).1 = t.nextSlot := rfl
  rw [CountedTable.installOne, hcounted]
  simp only [Option.bind_eq_bind, Option.bind_some, ofNat_eq_slot_iff hfew, insertStandard, hid]
  split <;> rfl

/-- A standard stream is in its place if as many descriptors are there already as the number of its
slot says. -/
theorem installOne_placed {s : StandardStream} (hslot : ds.length = s.slot)
    (halloc : CountedTable.Allocates width (ofList ds free).roomy.length) (fd : UInt32)
    (stream : Stream) :
    ∃ rest, ds.length + 1 + rest = (ofList ds free).roomy.length ∧
      (ofList ds free).insertStandard s fd stream =
        (none, ofList (ds ++ [.standard s fd stream]) rest) ∧
      (ofList ds free).counted.installOne width s fd stream =
        some (none, (ofList (ds ++ [.standard s fd stream]) rest).counted) := by
  have hfew : (ofList ds free).nextSlot < 2 ^ 32 := by
    rw [nextSlot_ofList, hslot]
    cases s <;> decide
  obtain ⟨rest, hinsert⟩ := insertStandard_ofList ds s hslot free fd stream
  have hcapacity : ((ofList ds free).insertStandard s fd stream).2.capacity =
      (ofList ds free).roomy.length := capacity_insert_eq (ofList ds free) (.standard s fd stream)
  rw [hinsert, capacity_ofList, List.length_append, List.length_singleton] at hcapacity
  refine ⟨rest, hcapacity, hinsert, ?_⟩
  rw [installOne_counted _ hfew halloc, hinsert]
  rfl

/-! ## All three -/

/-- Where there are descriptors already, standard input comes after them and is misplaced. -/
theorem insertStandards_ofList (hds : ds ≠ []) (free : Nat) (fds : StandardFds)
    (streams : StandardStreams) :
    ∃ rest, (ofList ds free).insertStandards fds streams =
      (some ⟨.stdin, ds.length⟩,
        ofList (ds ++ [.standard .stdin fds.stdin streams.stdin]) rest) := by
  obtain ⟨rest, hrest⟩ := insert_ofList ds free (.standard .stdin fds.stdin streams.stdin)
  have hslot : ds.length ≠ StandardStream.stdin.slot := mt List.length_eq_zero_iff.1 hds
  exact ⟨rest, by simp only [insertStandards, insertStandard, hrest, if_neg hslot]⟩

theorem install_ofList (hds : ds ≠ []) (hfew : ds.length < 2 ^ 32)
    (halloc : CountedTable.Allocates width (ofList ds free).roomy.length) (fds : StandardFds)
    (streams : StandardStreams) :
    (ofList ds free).counted.install width fds streams =
      some (((ofList ds free).insertStandards fds streams).1.map Misplaced.mismatch,
        ((ofList ds free).insertStandards fds streams).2.counted) := by
  have hslot : ds.length ≠ StandardStream.stdin.slot := mt List.length_eq_zero_iff.1 hds
  obtain ⟨rest, hins⟩ := insert_ofList ds free (.standard .stdin fds.stdin streams.stdin)
  have hinsert : (ofList ds free).insertStandard .stdin fds.stdin streams.stdin =
      (some ⟨.stdin, ds.length⟩,
        ofList (ds ++ [.standard .stdin fds.stdin streams.stdin]) rest) := by
    simp only [insertStandard, hins, if_neg hslot]
  rw [CountedTable.install, insertStandards,
    installOne_counted _ ((nextSlot_ofList ds free).symm ▸ hfew) halloc, hinsert]
  rfl

/-- In a table without descriptors the standard streams need four slots at most, if it has not more
already. -/
theorem install_empty (free : Nat) (halloc : CountedTable.Allocates width (max 4 free))
    (fds : StandardFds) (streams : StandardStreams) :
    ∃ rest, (empty free).insertStandards fds streams =
        (none, ofList (standards fds streams) rest) ∧
      (CountedTable.empty free).install width fds streams =
        some (none, (ofList (standards fds streams) rest).counted) := by
  have hroom {ds : List Descriptor} {rest : Nat} (hds : ds.length ≤ 2)
      (hrest : ds.length + rest ≤ max 4 free) :
      (ofList ds rest).roomy.length ≤ max 4 free := by
    rw [length_roomy_ofList]
    split <;> omega
  have hle₁ := @hroom [] free (by simp) (by rw [List.length_nil]; omega)
  obtain ⟨free₁, hlen₁, hinsert₁, hinstall₁⟩ := installOne_placed (s := .stdin) rfl
    (halloc.mono hle₁) fds.stdin streams.stdin
  have hle₂ := @hroom [.standard .stdin fds.stdin streams.stdin] free₁ (by simp)
    (Nat.le_trans (Nat.le_of_eq hlen₁) hle₁)
  obtain ⟨free₂, hlen₂, hinsert₂, hinstall₂⟩ := installOne_placed (s := .stdout) rfl
    (halloc.mono hle₂) fds.stdout streams.stdout
  have hle₃ := @hroom [.standard .stdin fds.stdin streams.stdin,
    .standard .stdout fds.stdout streams.stdout] free₂ (by simp)
    (Nat.le_trans (Nat.le_of_eq hlen₂) hle₂)
  obtain ⟨free₃, -, hinsert₃, hinstall₃⟩ := installOne_placed (s := .stderr) rfl
    (halloc.mono hle₃) fds.stderr streams.stderr
  have hempty : empty free = ofList [] free := rfl
  simp only [List.nil_append, List.cons_append] at hinsert₁ hinsert₂ hinsert₃
  simp only [List.nil_append, List.cons_append] at hinstall₁ hinstall₂ hinstall₃
  rw [← counted_empty, hempty]
  refine ⟨free₃, by simp only [insertStandards, hinsert₁, hinsert₂, hinsert₃, standards], ?_⟩
  simp only [CountedTable.install, hinstall₁, hinstall₂, hinstall₃, standards,
    Option.bind_eq_bind, Option.bind_some]

end Table

/-! ## Success and failure -/

namespace CountedTable

/-- The standard streams are the only descriptors.  They are in the first three slots, carry their
numbers and have the rights of standard streams. -/
structure Standing (t : CountedTable) (fds : StandardFds) (streams : Table.StandardStreams) :
    Prop where
  used_eq : t.used = 3
  slots_eq : ∃ free, t.slots =
    [some ⟨.standard .stdin fds.stdin streams.stdin, 0⟩,
      some ⟨.standard .stdout fds.stdout streams.stdout, 1⟩,
      some ⟨.standard .stderr fds.stderr streams.stderr, 2⟩] ++ List.replicate free none
  rights : ∀ d, some d ∈ t.slots → d.base = .standardStream ∧ d.inheriting = .none

/-- `t'` has one descriptor more than `t`, which is standard input under the number of the
descriptors of `t`. -/
structure Stranded (t : CountedTable) (fds : StandardFds) (streams : Table.StandardStreams)
    (t' : CountedTable) : Prop where
  used_eq : t'.used = t.used + 1
  slots_eq : ∃ ds free free', ds.length = t.used ∧
    t.slots = ds.map some ++ List.replicate free none ∧
    t'.slots = (ds ++ [⟨.standard .stdin fds.stdin streams.stdin, UInt32.ofNat t.used⟩]).map some ++
      List.replicate free' none

end CountedTable

namespace Table

theorem slots_counted_ofList (ds : List Descriptor) (free : Nat) :
    (ofList ds free).counted.slots =
      (ds.mapIdx fun i d => (⟨d, UInt32.ofNat i⟩ : NumberedDescriptor)).map some ++
        List.replicate free none := by
  rw [counted, ofList, List.mapIdx_append, mapIdx_replicate_none _ fun i => rfl]
  simp only [List.mapIdx_eq_zipIdx_map, List.zipIdx_map, List.map_map]
  rfl

theorem standing_counted (fds : StandardFds) (streams : StandardStreams) (free : Nat) :
    (ofList (standards fds streams) free).counted.Standing fds streams := by
  have hslots := slots_counted_ofList (standards fds streams) free
  refine ⟨size_ofList _ _, ⟨free, hslots⟩, fun d hd => ?_⟩
  rw [hslots, List.mem_append] at hd
  obtain hd | hd := hd
  · simp only [standards, List.mapIdx_cons, List.mapIdx_nil, List.map_cons, List.map_nil,
      List.mem_cons, List.not_mem_nil, or_false, Option.some_inj] at hd
    rcases hd with rfl | rfl | rfl <;> exact ⟨rfl, rfl⟩
  · exact absurd (List.eq_of_mem_replicate hd) (Option.some_ne_none d)

theorem stranded_counted (ds : List Descriptor) (free free' : Nat) (fds : StandardFds)
    (streams : StandardStreams) :
    (ofList ds free).counted.Stranded fds streams
      (ofList (ds ++ [.standard .stdin fds.stdin streams.stdin]) free').counted := by
  have hused : (ofList ds free).counted.used = ds.length := size_ofList ds free
  refine ⟨?_, _, free, free', ?_, slots_counted_ofList ds free, ?_⟩
  · rw [hused]
    exact (size_ofList _ _).trans (by simp)
  · rw [hused, List.length_mapIdx]
  · rw [slots_counted_ofList, hused, List.mapIdx_append, List.mapIdx_cons, List.mapIdx_nil,
      Nat.zero_add]

/-- In an empty table that can be allocated the standard streams find their places. -/
theorem standing_of_allocates {size : Nat} (halloc : CountedTable.Allocates width (max 4 size))
    (fds : StandardFds) (streams : StandardStreams) :
    ∃ t, (empty size).insertStandards fds streams = (none, t) ∧
      CountedTable.withStandards width size fds streams = some (none, t.counted) ∧
      t.counted.Standing fds streams := by
  obtain ⟨rest, hinsert, hinstall⟩ := install_empty size halloc fds streams
  have hnew : CountedTable.allocate width size = some (CountedTable.empty size) :=
    if_pos (halloc.mono (Nat.le_max_right 4 size))
  refine ⟨_, hinsert, ?_, standing_counted fds streams rest⟩
  rw [CountedTable.withStandards, hnew]
  exact hinstall

/-- The standard streams find their places in a table exactly if it has no descriptors. -/
theorem installed_ofList (hfew : ds.length < 2 ^ 32)
    (halloc : CountedTable.Allocates width (max 4 (ofList ds free).roomy.length))
    (fds : StandardFds) (streams : StandardStreams) :
    (ds.length = 0 → ∃ t', (ofList ds free).counted.install width fds streams = some (none, t') ∧
        t'.Standing fds streams) ∧
      (ds.length ≠ 0 → ∃ t', (ofList ds free).counted.install width fds streams =
          some (some ⟨"<stdin>", 0, UInt32.ofNat ds.length⟩, t') ∧
        (ofList ds free).counted.Stranded fds streams t') := by
  refine ⟨fun hnone => ?_, fun hsome => ?_⟩
  · obtain rfl := List.length_eq_zero_iff.1 hnone
    have hroom : max 4 free ≤ max 4 (ofList [] free).roomy.length := by
      rw [length_roomy_ofList]
      split <;> simp_all
    obtain ⟨rest, -, hinstall⟩ := install_empty free (halloc.mono hroom) fds streams
    exact ⟨_, (counted_empty free).symm ▸ hinstall, standing_counted fds streams rest⟩
  · have hds : ds ≠ [] := mt List.length_eq_zero_iff.2 hsome
    obtain ⟨rest, hinsert⟩ := insertStandards_ofList hds free fds streams
    refine ⟨_, ?_, stranded_counted ds free rest fds streams⟩
    rw [install_ofList hds hfew (halloc.mono (Nat.le_max_right 4 _)), hinsert]
    rfl

end Table

namespace CountedTable

/-- Every configuration describes a state in which the standard streams are in their places, and so
does every size, if the slots can be allocated.  In a table of fewer than `2 ^ 32` descriptors that
was built up in any way the standard streams find their places exactly if it has no descriptors.
Otherwise standard input is left where it should not be, and is reported. -/
theorem install_history (width size : Nat) (steps : List TableStep) (fds : StandardFds)
    (streams : Table.StandardStreams) :
    (∀ c : Config, Allocates width (max 4 c.tableSize.toNat) →
        ∃ s, Wasi.ofConfig c streams = .ok s ∧
          withStandards width c.tableSize.toNat c.stdio streams = some (none, s.table.counted) ∧
          s.table.counted.Standing c.stdio streams) ∧
      (Allocates width (max 4 size) →
        ∃ t, withStandards width size fds streams = some (none, t) ∧ t.Standing fds streams) ∧
      (((Table.empty size).history steps).size < 2 ^ 32 →
        ∃ log t, (empty size).history steps = some (log, t) ∧
          t = ((Table.empty size).history steps).counted ∧
          (Allocates width (max 4 t.roomy.length) →
            (t.used = 0 → ∃ t', t.install width fds streams = some (none, t') ∧
              t'.Standing fds streams) ∧
            (t.used ≠ 0 → ∃ t', t.install width fds streams =
                some (some ⟨"<stdin>", 0, UInt32.ofNat t.used⟩, t') ∧
              t.Stranded fds streams t'))) := by
  refine ⟨fun c halloc => ?_, fun halloc => ?_, fun hfew => ?_⟩
  · obtain ⟨t, hinsert, hinstall, ht⟩ := Table.standing_of_allocates halloc c.stdio streams
    exact ⟨_, by rw [Wasi.ofConfig, hinsert], hinstall, ht⟩
  · obtain ⟨t, -, hinstall, ht⟩ := Table.standing_of_allocates halloc fds streams
    exact ⟨_, hinstall, ht⟩
  · obtain ⟨log, ds, free, hgrows, hhistory⟩ := Table.grows_history steps [] size
    have ht : (Table.empty size).history steps = .ofList ds free := hgrows.eq_ofList
    have hempty : (Table.ofList [] size).counted = empty size := Table.counted_empty size
    rw [ht, Table.size_ofList] at hfew
    rw [hempty, hgrows.eq_ofList] at hhistory
    have hused : (Table.ofList ds free).counted.used = ds.length := Table.size_ofList ds free
    refine ⟨log, _, hhistory (Nat.le_of_lt hfew), by rw [ht], fun halloc => ?_⟩
    rw [Table.roomy_counted, List.length_mapIdx] at halloc
    rw [hused]
    exact Table.installed_ofList hfew halloc fds streams

/-- A table of no slots whose first slot was given to a file. -/
def squatted : List TableStep := [.insertFile "squatter" [120] .readOnly]

/-- There standard input is misplaced; in a table that was only looked at and flushed, and in that
of a configuration, the standard streams find their places. -/
theorem install_history_squatted :
    (∃ log t t', (empty 0).history squatted = some (log, t) ∧
        t.install 200 {} Table.quietStreams = some (some ⟨"<stdin>", 0, 1⟩, t') ∧
        t.Stranded {} Table.quietStreams t') ∧
      (∃ log t t', (empty 2).history [.get 0 .none .none, .flush] = some (log, t) ∧
        t.install 200 {} Table.quietStreams = some (none, t') ∧
        t'.Standing {} Table.quietStreams) ∧
      ∃ s, Wasi.ofConfig { tableSize := 1 } Table.quietStreams = .ok s ∧
        withStandards 200 1 {} Table.quietStreams = some (none, s.table.counted) := by
  refine ⟨?_, ?_, ?_⟩
  · obtain ⟨-, -, hhistory⟩ := install_history 200 0 squatted {} Table.quietStreams
    obtain ⟨log, t, hlog, ht, hinstall⟩ := hhistory (by decide)
    have hused : t.used = 1 := by rw [ht]; decide
    have hroomy : t.roomy.length = 2 := by
      rw [ht, Table.roomy_counted, List.length_mapIdx]
      decide
    obtain ⟨-, hmisplaced⟩ := hinstall (by rw [hroomy]; decide)
    obtain ⟨t', hreport, hstranded⟩ := hmisplaced (by omega)
    rw [hused] at hreport
    exact ⟨log, t, t', hlog, hreport, hstranded⟩
  · obtain ⟨-, -, hhistory⟩ := install_history 200 2 [.get 0 .none .none, .flush] {}
      Table.quietStreams
    obtain ⟨log, t, hlog, ht, hinstall⟩ := hhistory (by decide)
    have hroomy : t.roomy.length = 2 := by
      rw [ht, Table.roomy_counted, List.length_mapIdx]
      decide
    obtain ⟨hplaced, -⟩ := hinstall (by rw [hroomy]; decide)
    obtain ⟨t', hsuccess, hstanding⟩ := hplaced (by rw [ht]; decide)
    exact ⟨log, t, t', hlog, hsuccess, hstanding⟩
  · obtain ⟨hconfig, -⟩ := install_history 200 1 [] {} Table.quietStreams
    obtain ⟨s, hs, htable, -⟩ := hconfig { tableSize := 1 } (by decide)
    exact ⟨s, hs, htable⟩

end CountedTable

end GuestHost
