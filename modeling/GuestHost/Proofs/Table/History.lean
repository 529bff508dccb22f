import GuestHost.Proofs.Table.Counted
import Mathlib.Algebra.Group.Int.Defs
import Mathlib.Algebra.GroupWithZero.Nat

/-!
# Histories of a table

A counted table and a table are put through the same operations, `CountedTable.history` and
`Table.history`.  Beginning with free slots only, the table always has its descriptors in its first
slots, in the order in which they were added: `Grows` says what a step adds, and it composes.  So
the counted table is never stuck, it is always the counted form of the table, and the numbers, the
count and the look-ups are right in every history of fewer than `2 ^ 32` descriptors,
`accounts_history`.
-/

namespace GuestHost

/-- What a stream is, without its state. -/
inductive Stream.Kind where
  | input
  | output (sink : Sink)
  | file

/-- What a stream is. -/
def Stream.kind : Stream → Stream.Kind
  | .input _ => .input
  | .output o => .output o.sink
  | .file _ => .file

/-- A change of the state of a stream. -/
structure StreamChange where
  apply : Stream → Stream
  kind_apply : ∀ stream, (apply stream).kind = stream.kind

namespace StreamChange

/-- A read, which changes nothing if it fails. -/
def read (max : Nat) : StreamChange where
  apply stream := (stream.read max).toOption.elim stream Prod.snd
  kind_apply stream := by cases stream <;> rfl

def write (bs : Bytes) : StreamChange where
  apply stream := (stream.write bs).toOption.elim stream Prod.snd
  kind_apply stream := by
    cases stream with
    | input i => rfl
    | output o => rfl
    | file f =>
      rw [Stream.write]
      cases f.write bs <;> rfl

def seek (offset : Int) (whence : Whence) : StreamChange where
  apply stream := (stream.seek offset whence).toOption.getD stream
  kind_apply stream := by
    cases stream with
    | input i => rfl
    | output o => rfl
    | file f =>
      rw [Stream.seek]
      cases f.seek offset whence <;> rfl

def flush : StreamChange where
  apply stream := stream.flush.2
  kind_apply stream := by
    rw [Stream.flush_eq]
    cases stream <;> rfl

end StreamChange

/-- An operation on a table.  A descriptor is looked up to be read, or to change its stream. -/
inductive TableStep where
  | insert (d : Descriptor)
  | insertFile (name : String) (contents : Bytes) (mode : AccessMode)
  | insertStandards (fds : StandardFds) (streams : Table.StandardStreams)
  | get (id : UInt32) (base inheriting : Rights)
  | getMut (id : UInt32) (base inheriting : Rights) (change : StreamChange)
  | flush

/-- The standard streams and their descriptors, in the order in which they are added. -/
def StandardStream.descriptors (fds : StandardFds) (streams : Table.StandardStreams) :
    List (StandardStream × Descriptor) :=
  [.stdin, .stdout, .stderr].zip (Table.standards fds streams)

/-- The descriptors that were added, in order, with the numbers they got. -/
abbrev Additions := List (UInt32 × Descriptor)

namespace CountedTable

/-- Inserts a descriptor and notes its number. -/
def add (t : CountedTable) (d : Descriptor) : Option (Additions × CountedTable) := do
  let (id, t) ← t.insert d
  some ([(id, d)], t)

/-- Adds standard streams, up to the first that gets another number than that of its slot.  That
one stays. -/
def addStandards (t : CountedTable) : List (StandardStream × Descriptor) →
    Option (Additions × CountedTable)
  | [] => some ([], t)
  | (s, d) :: rest => do
    let (id, t) ← t.insert d
    if id = UInt32.ofNat s.slot then
      let (added, t) ← t.addStandards rest
      some ((id, d) :: added, t)
    else some ([(id, d)], t)

def run (t : CountedTable) : TableStep → Option (Additions × CountedTable)
  | .insert d => t.add d
  | .insertFile name contents mode => t.add (.file (UInt32.ofNat t.capacity) name contents mode)
  | .insertStandards fds streams => t.addStandards (StandardStream.descriptors fds streams)
  | .get _ _ _ => some ([], t)
  | .getMut id base inheriting change =>
    match t.getMut id base inheriting with
    | .ok (d, set) => some ([], set (change.apply d.stream))
    | .error _ => some ([], t)
  | .flush => some ([], t.flush)

/-- Does all operations, and gives all that was added. -/
def history (t : CountedTable) : List TableStep → Option (Additions × CountedTable)
  | [] => some ([], t)
  | step :: steps => do
    let (added, t) ← t.run step
    let (more, t) ← t.history steps
    some (added ++ more, t)

end CountedTable

namespace Table

def run (t : Table) : TableStep → Table
  | .insert d => (t.insert d).2
  | .insertFile name contents mode => (t.insertFile name contents mode).2
  | .insertStandards fds streams => (t.insertStandards fds streams).2
  | .get _ _ _ => t
  | .getMut id base inheriting change =>
    match t.lookup id.toNat base inheriting with
    | .ok d => t.setStream id.toNat (change.apply d.stream)
    | .error _ => t
  | .flush => t.flush.2

def history (t : Table) (steps : List TableStep) : Table := steps.foldl run t

end Table

/-! ## What a step adds -/

/-- A descriptor without its stream, and what the stream is. -/
def Descriptor.bare (d : Descriptor) : Descriptor × Stream.Kind :=
  (d.withStream default, d.stream.kind)

/-- The additions without the state of the streams. -/
def Additions.bare (added : Additions) : List (UInt32 × Descriptor × Stream.Kind) :=
  added.map fun (id, d) => (id, d.bare)

namespace Table

/-- The descriptors with the numbers of their places, without the state of the streams. -/
def ledger (ds : List Descriptor) : List (UInt32 × Descriptor × Stream.Kind) :=
  ds.mapIdx fun i d => (UInt32.ofNat i, d.bare)

/-- The capacity after `n` insertions, where a full table doubles. -/
def capacityAfter : (n used capacity : Nat) → Nat
  | 0, _, capacity => capacity
  | n + 1, used, capacity =>
    capacityAfter n (used + 1) (if capacity ≤ used then max 1 (2 * capacity) else capacity)

theorem capacityAfter_add (m n used capacity : Nat) :
    capacityAfter (m + n) used capacity =
      capacityAfter n (used + m) (capacityAfter m used capacity) := by
  induction m generalizing used capacity with
  | zero => rw [Nat.zero_add]; rfl
  | succ m ih =>
    rw [Nat.succ_add, capacityAfter, capacityAfter, ih, Nat.succ_add_eq_add_succ]

/-- `t` has the descriptors `ds'` and `free'` slots after them: those of `ds`, and those that were
added to a table of `ds` and `free`. -/
structure Grows (ds : List Descriptor) (free : Nat) (added : Additions) (t : Table)
    (ds' : List Descriptor) (free' : Nat) : Prop where
  eq_ofList : t = ofList ds' free'
  ledger_eq : ledger ds' = ledger ds ++ added.bare
  capacity_eq : t.capacity = capacityAfter added.length ds.length (ds.length + free)

variable {ds ds' ds'' : List Descriptor} {free free' free'' : Nat} {added more : Additions}
  {t t' : Table}

theorem capacity_ofList (ds : List Descriptor) (free : Nat) :
    (ofList ds free).capacity = ds.length + free := by
  simp [ofList, capacity]

theorem size_ofList (ds : List Descriptor) (free : Nat) : (ofList ds free).size = ds.length := by
  simp [ofList, size, List.countP_replicate, List.countP_map, Function.comp_def]

theorem Grows.length_eq (h : Grows ds free added t ds' free') :
    ds'.length = ds.length + added.length := by
  have hlen := congrArg List.length h.ledger_eq
  simpa [ledger, Additions.bare] using hlen

theorem Grows.trans (h : Grows ds free added t ds' free')
    (h' : Grows ds' free' more t' ds'' free'') :
    Grows ds free (added ++ more) t' ds'' free'' where
  eq_ofList := h'.eq_ofList
  ledger_eq := by
    rw [h'.ledger_eq, h.ledger_eq, List.append_assoc, Additions.bare, Additions.bare,
      Additions.bare, List.map_append]
  capacity_eq := by
    have hcap := h.capacity_eq
    rw [h.eq_ofList, capacity_ofList] at hcap
    rw [h'.capacity_eq, hcap, h.length_eq, List.length_append, capacityAfter_add]

theorem Grows.of_ledger_eq (hledger : ledger ds' = ledger ds) :
    Grows ds free [] (ofList ds' free) ds' free where
  eq_ofList := rfl
  ledger_eq := by
    rw [hledger]
    exact (List.append_nil _).symm
  capacity_eq := by
    have hlen := congrArg List.length hledger
    simp only [ledger, List.length_mapIdx] at hlen
    rw [capacity_ofList, hlen]
    rfl

theorem grows_insert (ds : List Descriptor) (free : Nat) (d : Descriptor) :
    ∃ free', Grows ds free [(UInt32.ofNat ds.length, d)] ((ofList ds free).insert d).2
      (ds ++ [d]) free' := by
  obtain ⟨rest, hrest⟩ := insert_ofList ds free d
  refine ⟨rest, by rw [hrest], ?_, ?_⟩
  · simp [ledger, Additions.bare]
  · rw [capacity_insert, size_ofList, capacity_ofList]
    rfl

theorem ledger_modify {i : Nat} {d : Descriptor} {stream : Stream} (hd : ds[i]? = some d)
    (hkind : stream.kind = d.stream.kind) :
    ledger (ds.modify i (·.withStream stream)) = ledger ds := by
  apply List.ext_getElem?
  intro j
  rw [ledger, ledger, List.getElem?_mapIdx, List.getElem?_mapIdx, List.getElem?_modify]
  split
  · next hij =>
    subst hij
    have hbare : (d.withStream stream).bare = d.bare := Prod.ext rfl hkind
    simp only [hd, Option.map_eq_map, Option.map_some, hbare]
  · rw [id_map']

theorem emptied_ofList (ds : List Descriptor) (free : Nat) :
    (ofList ds free).emptied = ofList (ds.map fun d => d.withStream d.stream.emptied) free := by
  simp [emptied, ofList, Function.comp_def]

theorem ledger_emptied (ds : List Descriptor) :
    ledger (ds.map fun d => d.withStream d.stream.emptied) = ledger ds := by
  apply List.ext_getElem?
  intro i
  rw [ledger, ledger, List.getElem?_mapIdx, List.getElem?_mapIdx, List.getElem?_map]
  cases ds[i]? with
  | none => rfl
  | some d =>
    have hkind : d.stream.emptied.kind = d.stream.kind := by cases d.stream <;> rfl
    have hbare : (d.withStream d.stream.emptied).bare = d.bare := Prod.ext rfl hkind
    simp only [Option.map_some, hbare]

/-! ## Step and history -/

def addStandards (t : Table) : List (StandardStream × Descriptor) → Table
  | [] => t
  | (s, d) :: rest =>
    if (t.insert d).1 = s.slot then (t.insert d).2.addStandards rest else (t.insert d).2

theorem insertStandards_eq (t : Table) (fds : StandardFds) (streams : StandardStreams) :
    (t.insertStandards fds streams).2 =
      t.addStandards (StandardStream.descriptors fds streams) := by
  simp only [insertStandards, insertStandard, StandardStream.descriptors, standards,
    List.zip_cons_cons, addStandards]
  by_cases hstdin : (t.insert (.standard .stdin fds.stdin streams.stdin)).1 =
      StandardStream.stdin.slot
  · simp only [hstdin, if_true]
    by_cases hstdout : ((t.insert (.standard .stdin fds.stdin streams.stdin)).2.insert
        (.standard .stdout fds.stdout streams.stdout)).1 = StandardStream.stdout.slot
    · simp only [hstdout, if_true]
      exact (ite_self _).symm
    · simp only [hstdout, if_false]
  · simp only [hstdin, if_false]

/-- Numbers of 32 bits are compared as the numbers of the slots are, as long as they fit. -/
theorem ofNat_eq_slot_iff {n : Nat} (h : n < 2 ^ 32) (s : StandardStream) :
    UInt32.ofNat n = UInt32.ofNat s.slot ↔ n = s.slot := by
  have hslot : s.slot < 2 ^ 32 := by cases s <;> decide
  rw [← UInt32.toNat_inj, UInt32.toNat_ofNat_of_lt' h, UInt32.toNat_ofNat_of_lt' hslot]

theorem grows_addStandards (fresh : List (StandardStream × Descriptor)) (ds : List Descriptor)
    (free : Nat) : ∃ added ds' free',
      Grows ds free added ((ofList ds free).addStandards fresh) ds' free' ∧
      (ds'.length ≤ 2 ^ 32 → (ofList ds free).counted.addStandards fresh =
        some (added, ((ofList ds free).addStandards fresh).counted)) := by
  induction fresh generalizing ds free with
  | nil => exact ⟨[], ds, free, .of_ledger_eq rfl, fun _ => rfl⟩
  | cons entry rest ih =>
    obtain ⟨s, d⟩ := entry
    obtain ⟨free₁, hins⟩ := grows_insert ds free d
    have hnext : ((ofList ds free).insert d).1 = ds.length := nextSlot_ofList ds free
    have hcounted : (ofList ds free).counted.insert d =
        some (UInt32.ofNat ds.length, ((ofList ds free).insert d).2.counted) := by
      rw [insert_counted, nextSlot_ofList]
    by_cases hslot : ds.length = s.slot
    · obtain ⟨added, ds', free', hgrows, hrun⟩ := ih (ds ++ [d]) free₁
      rw [← hins.eq_ofList] at hgrows hrun
      refine ⟨(UInt32.ofNat ds.length, d) :: added, ds', free', ?_, fun hfew => ?_⟩
      · rw [addStandards, hnext, if_pos hslot]
        exact hins.trans hgrows
      · have hlen := hgrows.length_eq
        rw [List.length_append, List.length_singleton] at hlen
        rw [addStandards, hnext, if_pos hslot, CountedTable.addStandards, hcounted]
        simp only [Option.bind_eq_bind, Option.bind_some, (ofNat_eq_slot_iff (by omega) s).2 hslot,
          if_true, hrun hfew]
    · refine ⟨[(UInt32.ofNat ds.length, d)], ds ++ [d], free₁, ?_, fun hfew => ?_⟩
      · rw [addStandards, hnext, if_neg hslot]
        exact hins
      · rw [List.length_append, List.length_singleton] at hfew
        rw [addStandards, hnext, if_neg hslot, CountedTable.addStandards, hcounted]
        have hnot : ¬ UInt32.ofNat ds.length = UInt32.ofNat s.slot :=
          mt (ofNat_eq_slot_iff (by omega) s).1 hslot
        simp only [Option.bind_eq_bind, Option.bind_some, hnot, if_false]

theorem grows_run (step : TableStep) (ds : List Descriptor) (free : Nat) :
    ∃ added ds' free', Grows ds free added ((ofList ds free).run step) ds' free' ∧
      (ds'.length ≤ 2 ^ 32 → (ofList ds free).counted.run step =
        some (added, ((ofList ds free).run step).counted)) := by
  have hadd (d : Descriptor) : ∃ added ds' free',
      Grows ds free added ((ofList ds free).insert d).2 ds' free' ∧
      (ds'.length ≤ 2 ^ 32 → (ofList ds free).counted.add d =
        some (added, ((ofList ds free).insert d).2.counted)) := by
    obtain ⟨free₁, hins⟩ := grows_insert ds free d
    refine ⟨_, _, free₁, hins, fun _ => ?_⟩
    rw [CountedTable.add, insert_counted, nextSlot_ofList]
    rfl
  cases step with
  | insert d => exact hadd d
  | insertFile name contents mode =>
    rw [run, insertFile, CountedTable.run, capacity_counted]
    exact hadd _
  | insertStandards fds streams =>
    simp only [run, CountedTable.run, insertStandards_eq]
    exact grows_addStandards _ ds free
  | get id base inheriting => exact ⟨[], ds, free, .of_ledger_eq rfl, fun _ => rfl⟩
  | getMut id base inheriting change =>
    simp only [run, CountedTable.run, getMut_counted]
    cases hlookup : (ofList ds free).lookup id.toNat base inheriting with
    | error errno => exact ⟨[], ds, free, .of_ledger_eq rfl, fun _ => rfl⟩
    | ok d =>
      have hd : ds[id.toNat]? = some d := by
        rw [← get?_ofList ds free, get?_of_lookup hlookup]
      refine ⟨[], ds.modify id.toNat (·.withStream (change.apply d.stream)), free, ?_,
        fun _ => rfl⟩
      simp only [setStream_ofList]
      exact .of_ledger_eq (ledger_modify hd (change.kind_apply d.stream))
  | flush =>
    refine ⟨[], ds.map fun d => d.withStream d.stream.emptied, free, ?_, fun _ => ?_⟩
    · rw [run, flush_eq, emptied_ofList]
      exact .of_ledger_eq (ledger_emptied ds)
    · rw [CountedTable.run, flush_counted, run]

theorem grows_history (steps : List TableStep) (ds : List Descriptor) (free : Nat) :
    ∃ added ds' free', Grows ds free added ((ofList ds free).history steps) ds' free' ∧
      (ds'.length ≤ 2 ^ 32 → (ofList ds free).counted.history steps =
        some (added, ((ofList ds free).history steps).counted)) := by
  -- A table never gets smaller, so the numbers fit at every step if they fit at the end.
  induction steps generalizing ds free with
  | nil => exact ⟨[], ds, free, .of_ledger_eq rfl, fun _ => rfl⟩
  | cons step steps ih =>
    obtain ⟨added, ds₁, free₁, hstep, hrun⟩ := grows_run step ds free
    obtain ⟨more, ds', free', hsteps, hhistory⟩ := ih ds₁ free₁
    rw [← hstep.eq_ofList] at hsteps hhistory
    refine ⟨added ++ more, ds', free', hstep.trans hsteps, fun hfew => ?_⟩
    have hlen := hsteps.length_eq
    rw [CountedTable.history, hrun (by omega)]
    simp only [Option.bind_eq_bind, Option.bind_some, hhistory hfew]
    rfl

end Table

/-! ## Keeping account -/

/-- What holds of a table after the additions `log`. -/
structure CountedTable.Accounts (t : CountedTable) (log : Additions) : Prop where
  used_eq : t.used = log.length
  used_le_capacity : t.used ≤ t.capacity
  /-- The descriptors are in the first slots. -/
  occupied_iff : ∀ i, (∃ d, t.slots[i]? = some (some d)) ↔ i < t.used
  /-- Each carries the number of its slot. -/
  id_eq : ∀ (i : Nat) (d : NumberedDescriptor), t.slots[i]? = some (some d) → d.id.toNat = i
  /-- The numbers are given out in order. -/
  number_eq : ∀ (n : Nat) (id : UInt32) (d : Descriptor), log[n]? = some (id, d) → id.toNat = n
  /-- What was added is found as it was, the state of its stream apart. -/
  find?_eq : ∀ id d, (id, d) ∈ log →
    ∃ stream, stream.kind = d.stream.kind ∧ t.find? id = some ⟨d.withStream stream, id⟩
  /-- A look-up fails for a number that was not given out, and for rights that the descriptor does
  not have. -/
  get_eq : ∀ id base inheriting,
    (t.used ≤ id.toNat ∧ t.get id base inheriting = .error .badf) ∨
    (id.toNat < t.used ∧ ∃ d, t.slots[id.toNat]? = some (some d) ∧ d.id = id ∧
      t.get id base inheriting =
        if d.base.contains base ∧ d.inheriting.contains inheriting then .ok d
        else .error .notcapable)
  getMut_eq_get : ∀ id base inheriting,
    (t.getMut id base inheriting).map (·.1) = t.get id base inheriting
  /-- A look-up by itself changes nothing. -/
  getMut_same : ∀ id base inheriting d set,
    t.getMut id base inheriting = .ok (d, set) → set d.stream = t

theorem Descriptor.eq_withStream_of_bare_eq {d d' : Descriptor} (h : d.bare = d'.bare) :
    d' = d.withStream d'.stream ∧ d'.stream.kind = d.stream.kind := by
  simp only [Descriptor.bare, Descriptor.withStream, Prod.mk.injEq, Descriptor.mk.injEq] at h
  simp [Descriptor.withStream, h]

namespace Table

theorem getElem?_of_bare_eq_ledger {log : Additions} (hlog : log.bare = ledger ds) {n : Nat}
    {id : UInt32} {d : Descriptor} (h : log[n]? = some (id, d)) :
    id = UInt32.ofNat n ∧
      ∃ stream, stream.kind = d.stream.kind ∧ ds[n]? = some (d.withStream stream) := by
  have hn := congrArg (·[n]?) hlog
  simp only [Additions.bare, ledger, List.getElem?_map, List.getElem?_mapIdx, h,
    Option.map_some] at hn
  obtain ⟨d', hd', heq⟩ := Option.map_eq_some_iff.1 hn.symm
  rw [Prod.mk.injEq] at heq
  obtain ⟨hd, hkind⟩ := Descriptor.eq_withStream_of_bare_eq heq.2.symm
  exact ⟨heq.1.symm, d'.stream, hkind, by rw [hd', ← hd]⟩

theorem getElem?_counted_ofList_iff (i : Nat) (d : NumberedDescriptor) :
    (ofList ds free).counted.slots[i]? = some (some d) ↔
      ∃ d₀, ds[i]? = some d₀ ∧ d = ⟨d₀, UInt32.ofNat i⟩ := by
  have hget := get?_ofList ds free i
  rw [get?] at hget
  rw [getElem?_counted, ← hget]
  cases (ofList ds free).slots[i]? with
  | none => simp
  | some slot => cases slot <;> simp [numbered, eq_comm]

theorem find?_counted_ofList (id : UInt32) :
    (ofList ds free).counted.find? id = (ds[id.toNat]?).map fun d => ⟨d, id⟩ := by
  rw [find?_counted, get?_ofList]

/-- A descriptor that is taken out to be changed and left as it is leaves the table as it is. -/
theorem getMut_counted_same (t : Table) {id : UInt32} {base inheriting : Rights}
    {d : NumberedDescriptor} {set : Stream → CountedTable}
    (h : t.counted.getMut id base inheriting = .ok (d, set)) : set d.stream = t.counted := by
  rw [getMut_counted] at h
  cases hlookup : t.lookup id.toNat base inheriting with
  | error errno => simp [hlookup, Except.map] at h
  | ok d₀ =>
    simp only [hlookup, Except.map, Except.ok.injEq, Prod.mk.injEq] at h
    obtain ⟨rfl, rfl⟩ := h
    exact congrArg counted (setStream_self (get?_of_lookup hlookup))

/-- A table that has its descriptors in its first slots keeps account of what was added to it. -/
theorem accounts_ofList {log : Additions} (hlog : log.bare = ledger ds)
    (hfew : ds.length < 2 ^ 32) : (ofList ds free).counted.Accounts log := by
  have hused : (ofList ds free).counted.used = ds.length := size_ofList ds free
  have hlen : log.length = ds.length := by
    simpa [Additions.bare, ledger] using congrArg List.length hlog
  have hnumber {n : Nat} (hn : n < ds.length) : (UInt32.ofNat n).toNat = n :=
    UInt32.toNat_ofNat_of_lt' (Nat.lt_trans hn hfew)
  constructor
  case used_eq => rw [hused, hlen]
  case used_le_capacity =>
    rw [hused, capacity_counted, capacity_ofList]
    omega
  case occupied_iff =>
    intro i
    simp only [getElem?_counted_ofList_iff, hused]
    constructor
    · rintro ⟨d, d₀, hd₀, -⟩
      exact (List.getElem?_eq_some_iff.1 hd₀).1
    · intro hi
      exact ⟨_, ds[i], List.getElem?_eq_getElem hi, rfl⟩
  case id_eq =>
    intro i d hd
    obtain ⟨d₀, hd₀, rfl⟩ := (getElem?_counted_ofList_iff i d).1 hd
    have hi : i < ds.length := (List.getElem?_eq_some_iff.1 hd₀).1
    exact hnumber hi
  case number_eq =>
    intro n id d hn
    have hlt : n < log.length := (List.getElem?_eq_some_iff.1 hn).1
    rw [(getElem?_of_bare_eq_ledger hlog hn).1]
    exact hnumber (by omega)
  case find?_eq =>
    intro id d hmem
    obtain ⟨n, hn⟩ := List.getElem?_of_mem hmem
    have hlt : n < log.length := (List.getElem?_eq_some_iff.1 hn).1
    obtain ⟨hid, stream, hkind, hd⟩ := getElem?_of_bare_eq_ledger hlog hn
    have hnum : id.toNat = n := by rw [hid, hnumber (by omega)]
    refine ⟨stream, hkind, ?_⟩
    rw [find?_counted_ofList, hnum, hd]
    rfl
  case get_eq =>
    intro id base inheriting
    rw [hused, CountedTable.get, find?_counted_ofList]
    by_cases hlt : id.toNat < ds.length
    · right
      refine ⟨hlt, ⟨ds[id.toNat], id⟩, ?_, rfl, ?_⟩
      · rw [getElem?_counted_ofList_iff]
        exact ⟨_, List.getElem?_eq_getElem hlt, by rw [UInt32.ofNat_toNat]⟩
      · simp only [List.getElem?_eq_getElem hlt, Option.map_some, Descriptor.allows,
          Bool.and_eq_true]
    · left
      rw [List.getElem?_eq_none (by omega)]
      exact ⟨by omega, rfl⟩
  case getMut_eq_get =>
    intro id base inheriting
    rw [getMut_counted, get_counted]
    cases (ofList ds free).lookup id.toNat base inheriting <;> rfl
  case getMut_same =>
    intro id base inheriting d set hmut
    exact getMut_counted_same _ hmut

/-- In every history of fewer than `2 ^ 32` descriptors, and after one step more, the counted table
is the counted form of the table, it keeps account of all additions, and its capacity changes with
insertions into a full table only. -/
theorem accounts_history (size : Nat) (steps : List TableStep) (step : TableStep)
    (hfew : ((empty size).history (steps ++ [step])).size < 2 ^ 32) :
    ∃ log t added t', (CountedTable.empty size).history steps = some (log, t) ∧
      t.run step = some (added, t') ∧
      t = ((empty size).history steps).counted ∧
      t' = ((empty size).history (steps ++ [step])).counted ∧
      t.Accounts log ∧ t'.Accounts (log ++ added) ∧
      t'.capacity = capacityAfter added.length t.used t.capacity := by
  have hempty : (ofList [] size).counted = CountedTable.empty size := counted_empty size
  obtain ⟨log, ds, free, hgrows, hhistory⟩ := grows_history steps [] size
  obtain ⟨added, ds', free', hstep, hrun⟩ := grows_run step ds free
  rw [← hgrows.eq_ofList] at hstep hrun
  rw [hempty] at hhistory
  have happend : (empty size).history (steps ++ [step]) =
      ((ofList [] size).history steps).run step := by
    rw [history, List.foldl_append]
    rfl
  rw [happend, hstep.eq_ofList, size_ofList] at hfew
  have hlen := hstep.length_eq
  refine ⟨log, _, added, _, hhistory (by omega), hrun (by omega), rfl, by rw [happend], ?_, ?_, ?_⟩
  · rw [hgrows.eq_ofList]
    exact accounts_ofList hgrows.ledger_eq.symm (by omega)
  · rw [hstep.eq_ofList]
    exact accounts_ofList (hgrows.trans hstep).ledger_eq.symm (by omega)
  · have hused : (ofList ds free).counted.used = ds.length := size_ofList ds free
    rw [capacity_counted, capacity_counted, hstep.capacity_eq, hgrows.eq_ofList, capacity_ofList,
      hused]

/-- A guest's streams, its output to two sinks. -/
def quietStreams : StandardStreams := .over (.ofLines []) ⟨1⟩ ⟨2⟩

/-- In a table of two slots the standard streams find their places, an output is written to and
flushed, a file is added, and then a second set of standard streams is misplaced. -/
theorem accounts_history_twoSlots :
    ∃ log t added t', (CountedTable.empty 2).history
        [.insertStandards {} quietStreams, .getMut 1 .none .none (.write [104, 105]), .flush,
          .insertFile "notes" [] .readWrite] = some (log, t) ∧
      t.run (.insertStandards {} quietStreams) = some (added, t') ∧
      t'.Accounts (log ++ added) ∧ t'.capacity = capacityAfter added.length t.used t.capacity := by
  have hfew : ((empty 2).history ([.insertStandards {} quietStreams,
      .getMut 1 .none .none (.write [104, 105]), .flush, .insertFile "notes" [] .readWrite] ++
        [.insertStandards {} quietStreams])).size < 2 ^ 32 := by decide
  obtain ⟨log, t, added, t', hhistory, hrun, -, -, -, ht', hcap⟩ := accounts_history 2 _ _ hfew
  exact ⟨log, t, added, t', hhistory, hrun, ht', hcap⟩

end Table

end GuestHost
