import GuestHost.Proofs.Action
import GuestHost.Proofs.Linking

/-!
# Guests that are watched

Under a watch everything runs as it does otherwise, and a log is kept of the instructions that the
guest carries out, of its system calls, and of its requests to be ended.  `Watch.manner` is this way
of running a guest, and `Watch.exports` that of running its exports.

A function of the host cannot be looked into, so a watch is set up from the `Origin` of each
function that a module imports; `Watch.of` finds them for an instance, and
`Watch.environment_of_link` says that they are the functions that were linked.
-/

namespace GuestHost

namespace Watch

/-- What is written down about a guest. -/
inductive Event where
  /-- It carries out an instruction, or leaves a block or a function. -/
  | instruction
  /-- A system call of it is answered.  Its memory is written down as it was before and after. -/
  | called (call : Syscall) (before : Option Memory)
      (answer : Except Fault (HostValue (List Wasm.Value))) (after : Option Memory)
  /-- It asks to be ended. -/
  | exit (code : Int32)

/-- What is written down about a system call. -/
def Event.ofCall (call : Syscall) (s : Host.Store)
    (answer : Except Fault (HostValue (List Wasm.Value))) (s' : Host.Store) : Event :=
  .called call s.memory answer s'.memory

/-- The store of a guest, and what was written down. -/
abbrev Store := Logged Host.Store Event

/-- How a guest runs under a watch: a system call is written down with its answer, and a request to
be ended before it is granted or denied. -/
@[reducible]
def manner : Host.Manner Store where
  store := .logged
  before := Action.record [.instruction]
  call call := (Host.answerCall call).logging (Event.ofCall call)
  exit code := do
    Action.record [.exit code]
    (Host.answerExit code).under
  provided i args := pure (i.answer args)

/-- Where a function of the host comes from. -/
inductive Origin where
  | wasi (f : WasiFunction)
  /-- The function by which a guest asks to be ended. -/
  | exit
  | provided (i : HostImport)
  /-- Nobody provides it. -/
  | unknown (key : ImportKey) (type : Wasm.FunctionType)

/-- What a function's number may stand for. -/
inductive Callee where
  | host (origin : Origin)
  | guest (function : Wasm.Function)

variable {τ : Type} (k : Host.Manner τ)

/-- The function itself. -/
def Origin.function : Origin → Wasm.HostFunction τ
  | wasi f => f.link k
  | exit => exitFunction k
  | provided i => i.link k
  | unknown key type => unknownImport key type

/-- What the number stands for. -/
def Callee.callee : Callee → Wasm.Callee τ
  | host origin => .host (origin.function k)
  | guest f => .guest f

end Watch

/-- What stays the same while a guest runs under a watch. -/
structure Watch where
  functions : Array Watch.Callee
  maxPages : Nat

namespace Watch

variable (w : Watch)

/-- The environment that is watched, for a guest that runs in the given manner. -/
def environment {τ : Type} (k : Host.Manner τ) : Wasm.Environment τ where
  functions := w.functions.map (Callee.callee k)
  maxPages := w.maxPages

/-- Runs a machine under a watch, for at most the given number of steps. -/
def exec : Nat → Wasm.Machine → Action Store (List Wasm.Value) :=
  Wasm.exec manner.toManner (w.environment manner)

/-- Calls a function of a guest under a watch. -/
def invoke : Wasm.Callback Store := Wasm.invoke manner.toManner (w.environment manner)

/-- The guest and its host with what was written down about them, as a part of an instance with
that. -/
@[reducible]
def part : Part (Logged Instance Event) Store where
  get t := ⟨t.state.store, t.log⟩
  set u t := ⟨{ t.state with store := u.state }, u.log⟩

/-- How exports run under a watch. -/
@[reducible]
def exports : Instance.Manner (Logged Instance Event) Store where
  self := .logged
  guest := part
  store := .logged
  invoke _ := w.invoke

end Watch

/-! ## The functions that were linked -/

namespace Definitions

variable {ds ds' : Definitions} {key : ImportKey} {imports : ImportSet}
  {asked : List (ImportKey × Wasm.ImportType)} {f : Wasm.HostFunction Host.Store}

theorem get?_append (ds ds' : Definitions) (key : ImportKey) :
    get? (ds ++ ds') key = (ds.get? key).or (ds'.get? key) := by
  rw [get?, List.find?_append, Option.map_or]
  rfl

/-- A stop for what nobody provides takes no key that was taken. -/
theorem get?_withUnknown (ds : Definitions) (one : ImportKey × Wasm.ImportType) (key : ImportKey) :
    get? (ds.withUnknown one) key = ds.get? key ∨
      ds.get? key = none ∧
        ∃ type, get? (ds.withUnknown one) key = some (unknownImport key type) := by
  rcases one with ⟨key', type | limits⟩
  · by_cases htaken : ds.contains key' = true
    · rw [withUnknown, if_pos htaken]
      exact .inl rfl
    · rw [withUnknown, if_neg htaken, get?_append]
      by_cases hkey : key' = key
      · subst hkey
        have hnone : ds.get? key' = none := by
          simpa [get?, contains] using htaken
        exact .inr ⟨hnone, type, by rw [hnone]; simp [get?]⟩
      · have hother : get? [⟨key', unknownImport key' type⟩] key = none := by simp [get?, hkey]
        rw [hother, Option.or_none]
        exact .inl rfl
  · exact .inl rfl

theorem get?_foldl_withUnknown (h : get? (asked.foldl withUnknown ds) key = some f) :
    ds.get? key = some f ∨ ds.get? key = none ∧ ∃ type, f = unknownImport key type := by
  induction asked generalizing ds with
  | nil => exact .inl h
  | cons one asked ih =>
    rcases get?_withUnknown ds one key with hsame | ⟨hnone, type, hnew⟩
    · rw [← hsame]
      exact ih h
    · rcases ih h with hf | ⟨hf, -⟩
      · exact .inr ⟨hnone, type, Option.some.inj (hf.symm.trans hnew)⟩
      · rw [hnew] at hf
        cases hf

end Definitions

namespace Watch

/-- Where the function comes from that a module is given for an import. -/
def Origin.of (imports : ImportSet) (key : ImportKey) (type : Wasm.FunctionType) : Origin :=
  if key = Definitions.wasiKey Wasi.exitName then .exit
  else
    match WasiFunction.all.find? fun f => Definitions.wasiKey f.name = key with
    | some f => .wasi f
    | none =>
      match imports.get? key with
      | some i => .provided i
      | none => .unknown key type

/-- What a module is given for the functions that it imports, in order. -/
def imported (imports : ImportSet) : List (ImportKey × Wasm.ImportType) → List Origin
  | [] => []
  | (key, .function type) :: asked => Origin.of imports key type :: imported imports asked
  | (_, .memory _) :: asked => imported imports asked

/-- The watch on an instance. -/
def of (imports : ImportSet) (i : Instance) : Watch where
  functions :=
    ((imported imports i.code.imports).map Callee.host ++
      i.code.functions.map Callee.guest).toArray
  maxPages := i.environment.maxPages

/-- Sets a module up under a watch.  Only its start function can be watched by then. -/
def create (c : Config) (m : Wasm.Module) (imports : ImportSet) (streams : Table.StandardStreams) :
    Except Refusal Instance × List Event :=
  match Instance.link c m imports streams with
  | .error cause => (.error { cause }, [])
  | .ok i =>
    match (i.setUp .logged (of imports i).invoke).apply ⟨i.store, []⟩ with
    | (.ok (), t) => (.ok { i with store := t.state }, t.log)
    | (.error cause, t) => (.error { cause, emitted := t.state.host.wasi.emitted }, t.log)

variable {ds ds' : Definitions} {key : ImportKey} {imports : ImportSet} {type : Wasm.FunctionType}
  {asked : List (ImportKey × Wasm.ImportType)} {m : Wasm.Module} {i : Instance}

theorem get?_wasi (key : ImportKey) :
    Definitions.wasi.get? key =
      if key = Definitions.wasiKey Wasi.exitName then some (exitFunction .plain)
      else (WasiFunction.all.find? fun f => Definitions.wasiKey f.name = key).map
        (WasiFunction.link .plain) := by
  rw [Definitions.wasi, Definitions.get?_append, Definitions.get?, List.find?_map, Option.map_map]
  by_cases hkey : key = Definitions.wasiKey Wasi.exitName
  · subst hkey
    have hnone : WasiFunction.all.find? (fun f =>
        decide (Definitions.wasiKey f.name = Definitions.wasiKey Wasi.exitName)) = none := by decide
    rw [if_pos rfl]
    simp only [Function.comp_def, hnone, Option.map_none, Option.none_or]
    rfl
  · have hexit :
        Definitions.get? [⟨Definitions.wasiKey Wasi.exitName, exitFunction .plain⟩] key = none := by
      simp [Definitions.get?, Ne.symm hkey]
    rw [if_neg hkey, hexit, Option.or_none]
    rfl

/-- The definition with a key is the function that comes from where `Origin.of` says, and there is
none where nobody provides it. -/
theorem get?_of (h : Definitions.ofImports imports = .ok ds) (key : ImportKey)
    (type : Wasm.FunctionType) :
    ds.get? key = some ((Origin.of imports key type).function .plain) ∨
      ds.get? key = none ∧ Origin.of imports key type = .unknown key type := by
  have hprovided : Definitions.get? (imports.entries.map fun i => ⟨i.key, i.link .plain⟩) key =
      (imports.get? key).map (HostImport.link .plain) := by
    rw [Definitions.get?, List.find?_map, Option.map_map]
    rfl
  obtain ⟨rfl, -⟩ := Definitions.ofImports_eq h
  rw [Definitions.get?_append, get?_wasi, hprovided, Origin.of]
  by_cases hkey : key = Definitions.wasiKey Wasi.exitName
  · rw [if_pos hkey, if_pos hkey]
    exact .inl rfl
  · rw [if_neg hkey, if_neg hkey]
    cases WasiFunction.all.find? fun f => decide (Definitions.wasiKey f.name = key) with
    | some f => exact .inl rfl
    | none =>
      cases imports.get? key with
      | some i => exact .inl rfl
      | none => exact .inr ⟨rfl, rfl⟩

theorem resolveOne_of {f : Wasm.HostFunction Host.Store}
    (h : Definitions.ofImports imports = .ok ds)
    (hds : ds' = ds ∨ ds' = asked.foldl .withUnknown ds)
    (hone : ds'.resolveOne (key, .function type) = .ok f) :
    f = (Origin.of imports key type).function .plain := by
  simp only [Definitions.resolveOne] at hone
  cases hget : ds'.get? key with
  | none =>
    rw [hget] at hone
    cases hone
  | some f' =>
    simp only [hget] at hone
    split at hone
    · next htype =>
      cases hone
      have hfound :
          ds.get? key = some f ∨ ds.get? key = none ∧ ∃ type, f = unknownImport key type := by
        rcases hds with rfl | rfl
        · exact .inl hget
        · exact Definitions.get?_foldl_withUnknown hget
      rcases get?_of h key type, hfound with ⟨hof | ⟨hnone, hof⟩, hf | ⟨hf, type', rfl⟩⟩
      · exact Option.some.inj (hf.symm.trans hof)
      · cases hf.symm.trans hof
      · cases hnone.symm.trans hf
      · rw [hof]
        cases htype
        rfl
    · cases hone

theorem mapM_resolveOne {fs : List (Wasm.HostFunction Host.Store)}
    (hone : ∀ key type f, ds'.resolveOne (key, .function type) = .ok f →
      f = (Origin.of imports key type).function .plain)
    (h : asked.mapM ds'.resolveOne = .ok fs) :
    fs = (imported imports asked).map (Origin.function .plain) := by
  induction asked generalizing fs with
  | nil =>
    cases h
    rfl
  | cons one asked ih =>
    rw [List.mapM_cons] at h
    obtain ⟨f, hf, h⟩ := bind_eq_ok h
    obtain ⟨rest, hrest, h⟩ := bind_eq_ok h
    cases h
    rcases one with ⟨key, type | limits⟩
    · rw [imported, List.map_cons, ← ih hrest, ← hone key type f hf]
    · cases hf

/-- A linked module runs what its imports were resolved to, and its own functions. -/
theorem resolved_of_link {c : Config} {streams : Table.StandardStreams}
    (h : Instance.link c m imports streams = .ok i) :
    ∃ ds ds' fs, Definitions.ofImports imports = .ok ds ∧
      (ds' = ds ∨ ds' = m.imports.foldl .withUnknown ds) ∧ ds'.resolve m = .ok fs ∧
      i.code = m ∧ i.environment = Instance.linked m fs c.maxMemory.toNat := by
  unfold Instance.link at h
  obtain ⟨wasi, -, h⟩ := bind_eq_ok h
  obtain ⟨ds, hds, h⟩ := bind_eq_ok h
  obtain ⟨fs, hfs, h⟩ := bind_eq_ok h
  obtain ⟨memory, -, h⟩ := bind_eq_ok h
  cases h
  refine ⟨ds, _, fs, hds, ?_, eq_ok_of_mapError hfs, rfl, rfl⟩
  split
  · exact .inr rfl
  · exact .inl rfl

/-- A watch on an instance watches what the instance runs. -/
theorem environment_of_link {c : Config} {streams : Table.StandardStreams}
    (h : Instance.link c m imports streams = .ok i) :
    (of imports i).environment .plain = i.environment := by
  obtain ⟨ds, ds', fs, hds, hwith, hfs, rfl, henvironment⟩ := resolved_of_link h
  have hlinked := mapM_resolveOne (fun _ _ _ => resolveOne_of hds hwith) hfs
  subst hlinked
  simp only [environment, of, henvironment, Instance.linked, List.map_toArray, List.map_append,
    List.map_map]
  rfl

/-- The number of an import is the number by which the guest calls what it was resolved to. -/
theorem function_of_link {c : Config} {streams : Table.StandardStreams}
    (h : Instance.link c m imports streams = .ok i) {n : Nat}
    (hn : m.imports[n]? = some (key, .function type)) :
    i.environment.functions[n]? = some (.host ((Origin.of imports key type).function .plain)) := by
  obtain ⟨ds, ds', fs, hds, hwith, hfs, -, henvironment⟩ := resolved_of_link h
  obtain ⟨f, hf, hone⟩ := getElem?_mapM hfs hn
  have hfunction := resolveOne_of hds hwith hone
  subst hfunction
  obtain ⟨hlt, -⟩ := List.getElem?_eq_some_iff.1 hf
  simp only [henvironment, Instance.linked, List.getElem?_toArray]
  rw [List.getElem?_append_left (by simpa using hlt), List.getElem?_map, hf]
  rfl

end Watch

end GuestHost
