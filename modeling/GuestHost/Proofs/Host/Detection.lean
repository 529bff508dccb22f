import GuestHost.Proofs.Host.Interception
import GuestHost.Proofs.Suspension.Scratch

/-!
# Telling whether a guest is instrumented

There are two ways to tell.  A module looks instrumented if the names of all controls are among
those of its exported functions.  An instance is instrumented if its host found the controls, for
which it asks for one name, and then for each control by its name and its type.

A module's own instantiation, `Instance.instantiate`, lays out its data and runs its start function;
`Instance.create_eq` says that looking for the controls is all that comes after it.  What this comes
to for every table of exports is `Instance.create_detects`: both ways of telling agree, and an
instrumented instance differs from what the module made of itself in the bounds of its scratch
region only.
-/

namespace GuestHost

open Suspension (Control Controls Scratch)

namespace Suspension

variable {m : Wasm.Module}

/-! ## Looking for the controls -/

namespace Control

/-- A module exports a control: there is a function under its name, and it has its type. -/
def Usable (m : Wasm.Module) (c : Control) : Prop :=
  (m.function? c.name).bind m.functionType? = some c.type

instance (m : Wasm.Module) : DecidablePred (Usable m) :=
  fun c => inferInstanceAs (Decidable (_ = some c.type))

/-- What is said of a control that cannot be used: there is no function under its name, or it has
another type. -/
def complaint (m : Wasm.Module) (c : Control) : String :=
  match m.function? c.name with
  | none => c.name ++ ": failed to find function export `" ++ c.name ++ "`"
  | some _ => c.name ++ ": failed to convert function `" ++ c.name ++ "` to given type"

/-- The number of the function that is exported under the name of a control. -/
def index (m : Wasm.Module) (c : Control) : Nat := (m.function? c.name).getD 0

theorem find_eq (m : Wasm.Module) (c : Control) :
    c.find m = if c.Usable m then .ok (c.index m) else .error (.missingExport (c.complaint m)) := by
  cases h : m.function? c.name with
  | none => simp [find, Usable, complaint, h]
  | some function => simp [find, Usable, index, complaint, h]

/-- The first control that cannot be used, in the order in which they are looked up. -/
def firstUnusable? (m : Wasm.Module) : Option Control := all.find? fun c => ¬ c.Usable m

theorem firstUnusable?_eq_none_iff : firstUnusable? m = none ↔ ∀ c, Usable m c := by
  simp [firstUnusable?, mem_all]

theorem Usable.isSome {c : Control} (h : c.Usable m) : (m.function? c.name).isSome := by
  obtain ⟨function, hfunction, -⟩ := Option.bind_eq_some_iff.1 h
  rw [hfunction]
  rfl

end Control

open Control (Usable firstUnusable?)

namespace Controls

/-- The functions that are exported under the names of the controls. -/
def ofNames (m : Wasm.Module) : Controls where
  getState := Control.getState.index m
  startUnwind := Control.startUnwind.index m
  stopUnwind := Control.stopUnwind.index m
  startRewind := Control.startRewind.index m
  stopRewind := Control.stopRewind.index m

theorem find_of_none (h : m.function? Control.getState.name = none) : find m = .ok none := by
  rw [find, h]
  rfl

/-- If there is a function under the first name, the first control that cannot be used decides. -/
theorem find_of_isSome (h : (m.function? Control.getState.name).isSome) :
    find m =
      match firstUnusable? m with
      | none => .ok (some (ofNames m))
      | some control => .error (.missingExport (control.complaint m)) := by
  have hsome : (m.function? Control.getState.name).isNone = false := by simpa using h
  simp only [find, hsome, Control.find_eq, firstUnusable?, Control.all, List.find?_cons]
  by_cases hget : Usable m .getState
  case neg => simp [hget, bind, Except.bind]
  by_cases hunwind : Usable m .startUnwind
  case neg => simp [hget, hunwind, bind, Except.bind]
  by_cases hstop : Usable m .stopUnwind
  case neg => simp [hget, hunwind, hstop, bind, Except.bind]
  by_cases hrewind : Usable m .startRewind
  case neg => simp [hget, hunwind, hstop, hrewind, bind, Except.bind]
  by_cases hend : Usable m .stopRewind
  case neg => simp [hget, hunwind, hstop, hrewind, hend, bind, Except.bind]
  simp [hget, hunwind, hstop, hrewind, hend, bind, Except.bind, ofNames]
  rfl

/-- The look-up ends in one of three ways. -/
theorem find_cases (m : Wasm.Module) :
    (m.function? Control.getState.name = none ∧ find m = .ok none) ∨
      ((∀ c, Usable m c) ∧ find m = .ok (some (ofNames m))) ∨
      ∃ control, firstUnusable? m = some control ∧
        (m.function? Control.getState.name).isSome ∧
          find m = .error (.missingExport (control.complaint m)) := by
  rcases hget : m.function? Control.getState.name with _ | function
  · exact .inl ⟨rfl, find_of_none hget⟩
  have hsome : (m.function? Control.getState.name).isSome := by simp [hget]
  have hfind := find_of_isSome hsome
  rcases hfirst : firstUnusable? m with _ | control
  · rw [hfirst] at hfind
    exact .inr (.inl ⟨Control.firstUnusable?_eq_none_iff.1 hfirst, hfind⟩)
  · rw [hfirst] at hfind
    exact .inr (.inr ⟨control, rfl, rfl, hfind⟩)

end Controls

theorem isInstrumented_iff : isInstrumented m ↔ ∀ c : Control, (m.function? c.name).isSome := by
  simp [isInstrumented, Control.mem_all]

/-- If the look-up does not fail, it finds controls just in the modules that look instrumented. -/
theorem isInstrumented_of_find {found : Option Controls} (h : Controls.find m = .ok found) :
    isInstrumented m = found.isSome := by
  rcases Controls.find_cases m with ⟨hnone, hfind⟩ | ⟨husable, hfind⟩ | ⟨control, -, -, hfind⟩
  · obtain rfl : none = found := Except.ok.inj (hfind.symm.trans h)
    refine Bool.eq_false_iff.2 fun hlooks => ?_
    have hget := isInstrumented_iff.1 hlooks .getState
    rw [hnone] at hget
    cases hget
  · obtain rfl : some (Controls.ofNames m) = found := Except.ok.inj (hfind.symm.trans h)
    exact isInstrumented_iff.2 fun c => (husable c).isSome
  · cases hfind.symm.trans h

end Suspension

/-! ## Names of exports -/

namespace Wasm.Module

variable {m : Module} {name : String}

theorem mem_functionNames :
    name ∈ m.functionNames ↔ ∃ index, (name, .function index) ∈ m.exports := by
  rw [functionNames, List.mem_filterMap]
  constructor
  · rintro ⟨⟨name', index | index | index⟩, hmem, hname⟩
    all_goals cases hname
    exact ⟨index, hmem⟩
  · rintro ⟨index, hmem⟩
    exact ⟨_, hmem, rfl⟩

/-- No two exports of a valid module share a name. -/
theorem nodup_of_isValid (h : m.isValid) : (m.exports.map Prod.fst).Nodup := by
  simp only [isValid, Bool.and_eq_true, decide_eq_true_eq] at h
  exact h.1.1.1.2

theorem export?_eq_some_iff (h : (m.exports.map Prod.fst).Nodup) {x : Export} :
    m.export? name = some x ↔ (name, x) ∈ m.exports := by
  rw [export?]
  constructor
  · intro hfound
    obtain ⟨⟨name', x'⟩, hfind, rfl⟩ := Option.map_eq_some_iff.1 hfound
    obtain rfl : name' = name := by simpa using List.find?_some hfind
    exact List.mem_of_find?_eq_some hfind
  · intro hmem
    obtain ⟨before, after, hsplit⟩ := List.append_of_mem hmem
    rw [hsplit, List.map_append, List.nodup_append] at h
    have hbefore : before.find? (fun e => e.1 == name) = none := by
      rw [List.find?_eq_none]
      intro e he
      simpa using h.2.2 e.1 (List.mem_map_of_mem he) name (by simp)
    simp [hsplit, List.find?_append, hbefore]

theorem isSome_function?_iff (h : (m.exports.map Prod.fst).Nodup) :
    (m.function? name).isSome ↔ name ∈ m.functionNames := by
  rw [mem_functionNames, function?]
  constructor
  · intro hsome
    split at hsome
    · next index hexport => exact ⟨index, (export?_eq_some_iff h).1 hexport⟩
    · cases hsome
  · rintro ⟨index, hmem⟩
    rw [(export?_eq_some_iff h).2 hmem]
    rfl

end Wasm.Module

/-- A valid module looks instrumented if it exports functions under the names of all controls. -/
theorem GuestModule.isInstrumented_iff_names {m : GuestModule} (h : m.code.isValid) :
    m.isInstrumented ↔ ∀ c : Control, c.name ∈ m.exports := by
  rw [isInstrumented, Suspension.isInstrumented_iff]
  exact forall_congr' fun c => Wasm.Module.isSome_function?_iff (Wasm.Module.nodup_of_isValid h)

/-! ## A module's own instantiation -/

/-- A host that has not looked for controls yet. -/
structure Host.Bare (c : Config) (m : Wasm.Module) (h : Host) : Prop where
  controls : h.controls = none
  sharesMemory : h.sharesMemory = m.hasMemory memoryName
  scratch : h.scratch = c.scratch

theorem Host.stable_bare (c : Config) (m : Wasm.Module) : Stable (Bare c m) where
  stash _ _ h := ⟨h.controls, h.sharesMemory, h.scratch⟩
  call _ _ _ h := ⟨h.controls, h.sharesMemory, h.scratch⟩
  exit _ _ h := ⟨h.controls, h.sharesMemory, h.scratch⟩
  flush _ h := ⟨h.controls, h.sharesMemory, h.scratch⟩

namespace Instance

variable {c : Config} {m : Wasm.Module} {imports : ImportSet} {streams : Table.StandardStreams}
  {i i₀ : Instance}

/-- The instance after something was done with its guest, or why that failed. -/
def after (i : Instance) (action : Action Host.Store Unit) : Except Refusal Instance :=
  match action.apply i.store with
  | (.ok (), store) => .ok { i with store }
  | (.error cause, store) => .error { cause, emitted := store.host.wasi.emitted }

/-- What a module makes of itself: it is linked, its data is laid out, and its start function has
run. -/
def instantiate (c : Config) (m : Wasm.Module) (imports : ImportSet)
    (streams : Table.StandardStreams) : Except Refusal Instance :=
  match link c m imports streams with
  | .error cause => .error { cause }
  | .ok i => i.after (i.runStart i.invoke)

/-- All that comes after a module's own instantiation is that the controls are looked for. -/
theorem create_eq (c : Config) (m : Wasm.Module) (imports : ImportSet)
    (streams : Table.StandardStreams) :
    create c m imports streams =
      (instantiate c m imports streams).bind fun i => i.after i.attach := by
  unfold create instantiate
  cases link c m imports streams with
  | error cause => rfl
  | ok i =>
    simp only [after, setUp, Action.apply_bind]
    rcases (i.runStart i.invoke).apply i.store with ⟨_ | _, s⟩
    · rfl
    · simp only [Except.bind]
      rfl

theorem link_bare (h : link c m imports streams = .ok i) : i.store.host.Bare c m := by
  unfold link at h
  obtain ⟨wasi, -, h⟩ := bind_eq_ok h
  obtain ⟨ds, -, h⟩ := bind_eq_ok h
  obtain ⟨imported, -, h⟩ := bind_eq_ok h
  obtain ⟨memory, -, h⟩ := bind_eq_ok h
  cases h
  exact ⟨rfl, rfl, rfl⟩

/-- The start function runs without any controls, and leaves the host so. -/
theorem instantiate_bare (h : instantiate c m imports streams = .ok i) :
    i.code = m ∧ i.store.host.Bare c m := by
  unfold instantiate at h
  split at h
  · cases h
  · next i₀ hlink =>
    obtain ⟨⟨ds, hlinked⟩, -⟩ := link_linked hlink
    have hinvoke := hlinked.invoke_preserves (Host.stable_bare c m)
    have hkept := i₀.runStart_preserves hinvoke i₀.store (link_bare hlink)
    unfold after at h
    split at h
    · next store hstart =>
      cases h
      rw [hstart] at hkept
      exact ⟨hlinked.code, hkept⟩
    · cases h

/-! ## What looking for the controls comes to -/

theorem after_attach_of_none (h : Controls.find i.code = .ok none) : i.after i.attach = .ok i := by
  rw [after, attach, Action.apply_bind, Action.apply_liftM, h]
  rfl

theorem after_attach_of_error {cause : Fault} (h : Controls.find i.code = .error cause) :
    i.after i.attach = .error { cause, emitted := i.wasi.emitted } := by
  rw [after, attach, Action.apply_bind, Action.apply_liftM, h]
  rfl

/-- The bounds of a scratch region can only be placed in a memory that the guest shares. -/
theorem placeScratch_eq_ok {s s' : Host.Store} (h : placeScratch.apply s = (.ok (), s')) :
    s.host.sharesMemory = true ∧ ∃ memory memory', s.memory = some memory ∧
      s.host.scratch.writeBounds memory = (.ok (), memory') ∧
        s' = { s with memory := some memory' } := by
  simp only [placeScratch, Action.apply_of] at h
  split at h
  · next memory hshares hmemory =>
    obtain ⟨hbounds, rfl⟩ := Prod.mk.inj h
    exact ⟨hshares, memory, _, hmemory, Prod.ext hbounds rfl, rfl⟩
  · cases h

theorem after_attach_of_some {controls : Controls} {i' : Instance}
    (hfind : Controls.find i.code = .ok (some controls)) (h : i.after i.attach = .ok i') :
    i.store.host.sharesMemory = true ∧ ∃ memory memory', i.store.memory = some memory ∧
      i.store.host.scratch.writeBounds memory = (.ok (), memory') ∧
        i' = i.armed controls memory' := by
  rw [after, attach, Action.apply_bind, Action.apply_liftM, hfind] at h
  simp only [Action.apply_bind] at h
  rcases hplace : placeScratch.apply i.store with ⟨_ | _, store⟩
  · rw [hplace] at h
    cases h
  · rw [hplace] at h
    cases h
    obtain ⟨hshares, memory, memory', hmemory, hbounds, rfl⟩ := placeScratch_eq_ok hplace
    exact ⟨hshares, memory, memory', hmemory, hbounds, rfl⟩

/-- The first instance was got ready to be suspended, which made it the second.  Its module exports
all controls and a memory; the bounds of the scratch region were written there, and nothing else was
changed. -/
structure Equipped (c : Config) (m : Wasm.Module) (i₀ i : Instance) : Prop where
  usable : ∀ control : Control, control.Usable m
  sharesMemory : m.hasMemory memoryName = true
  armed : ∃ memory memory', i₀.store.memory = some memory ∧ c.scratch.Installed memory memory' ∧
    i = i₀.armed (.ofNames m) memory'

/-- How the ways of telling whether a module is instrumented agree, if it makes the first of itself
and becomes the second once its controls were looked for. -/
structure Detects (c : Config) (m : GuestModule) (own made : Except Refusal Instance) : Prop where
  agree : ∀ i, made = .ok i → i.isInstrumented = m.isInstrumented
  names : m.code.isValid → (m.isInstrumented ↔ ∀ control : Control, control.name ∈ m.exports)
  equipped : ∀ i, made = .ok i → m.isInstrumented → ∃ i₀, own = .ok i₀ ∧
    ((∀ memory, i₀.store.memory = some memory → memory.size < 2 ^ 32) → Equipped c m.code i₀ i)
  /-- With a function under the first name, the first control that cannot be used is named. -/
  partly : ∀ i₀, own = .ok i₀ → (m.code.function? Control.getState.name).isSome →
    ∀ control, Control.firstUnusable? m.code = some control → made =
      .error { cause := .missingExport (control.complaint m.code), emitted := i₀.wasi.emitted }
  /-- Without one, the instance is taken as the module made it. -/
  plain : ∀ i₀, own = .ok i₀ → m.code.function? Control.getState.name = none →
    made = .ok i₀ ∧ i₀.isInstrumented = false

section Detects

variable (hcode : i₀.code = m) (hbare : i₀.store.host.Bare c m)

include hcode hbare

/-- Whether an instance is instrumented is what became of the look-up. -/
theorem isInstrumented_of_after (h : i₀.after i₀.attach = .ok i) :
    ∃ found, Controls.find m = .ok found ∧ i.isInstrumented = found.isSome := by
  subst hcode
  rcases hfind : Controls.find i₀.code with cause | _ | controls
  · rw [after_attach_of_error hfind] at h
    cases h
  · rw [after_attach_of_none hfind] at h
    cases h
    exact ⟨none, rfl, by rw [isInstrumented, hbare.controls]⟩
  · obtain ⟨-, -, -, -, -, rfl⟩ := after_attach_of_some hfind h
    exact ⟨some controls, rfl, rfl⟩

/-- In a memory that is not as large as it can ever be, the bounds are not placed by halves. -/
theorem equipped_of_after (h : i₀.after i₀.attach = .ok i) (hlooks : Suspension.isInstrumented m)
    (hsize : ∀ memory, i₀.store.memory = some memory → memory.size < 2 ^ 32) :
    Equipped c m i₀ i := by
  obtain ⟨found, hfound, -⟩ := isInstrumented_of_after hcode hbare h
  subst hcode
  rcases Controls.find_cases i₀.code with ⟨hnone, -⟩ | ⟨husable, hfind⟩ | ⟨_, -, -, hfind⟩
  · have hget := Suspension.isInstrumented_iff.1 hlooks .getState
    rw [hnone] at hget
    cases hget
  · obtain ⟨hshares, memory, memory', hmemory, hbounds, rfl⟩ := after_attach_of_some hfind h
    rw [hbare.scratch] at hbounds
    exact ⟨husable, hbare.sharesMemory ▸ hshares, memory, memory', hmemory,
      Scratch.installed_of_writeBounds (hsize memory hmemory) hbounds, rfl⟩
  · cases hfind.symm.trans hfound

end Detects

/-- The ways of telling whether a module is instrumented agree, whatever it exports. -/
theorem create_detects (c : Config) (m : GuestModule) (imports : ImportSet)
    (streams : Table.StandardStreams) :
    Detects c m (instantiate c m.code imports streams) (create c m.code imports streams) := by
  rw [create_eq]
  rcases hown : instantiate c m.code imports streams with refusal | i₀
  · rw [Except.bind]
    refine ⟨?_, GuestModule.isInstrumented_iff_names, ?_, ?_, ?_⟩
    all_goals
      intro _ h
      cases h
  rw [Except.bind]
  obtain ⟨hcode, hbare⟩ := instantiate_bare hown
  refine ⟨fun i hmade => ?_, GuestModule.isInstrumented_iff_names, fun i hmade hlooks => ?_, ?_, ?_⟩
  · obtain ⟨found, hfind, hfound⟩ := isInstrumented_of_after hcode hbare hmade
    rw [hfound, GuestModule.isInstrumented, Suspension.isInstrumented_of_find hfind]
  · exact ⟨i₀, rfl, equipped_of_after hcode hbare hmade hlooks⟩
  · intro i₁ hi₁ hget control hfirst
    obtain rfl : i₀ = i₁ := Except.ok.inj hi₁
    have hfind := Controls.find_of_isSome hget
    rw [hfirst] at hfind
    exact after_attach_of_error (hcode ▸ hfind)
  · intro i₁ hi₁ hget
    obtain rfl : i₀ = i₁ := Except.ok.inj hi₁
    have hfind := Controls.find_of_none hget
    rw [← hcode] at hfind
    refine ⟨after_attach_of_none hfind, ?_⟩
    rw [isInstrumented, hbare.controls]
    rfl

/-- A module that has all controls and a page of memory makes an instance that can be suspended. -/
theorem create_detects_escapee :
    escaping.isInstrumented ∧ Equipped {} escapee linkedEscapee escaping := by
  have hdetects := create_detects {} ⟨"escapee", escapee⟩ .empty (.over [] ⟨1⟩ ⟨2⟩)
  have hown : instantiate {} escapee .empty (.over [] ⟨1⟩ ⟨2⟩) = .ok linkedEscapee := by rfl
  have hlooks : Suspension.isInstrumented escapee := by decide +kernel
  obtain ⟨i₀, hi₀, hequipped⟩ := hdetects.equipped escaping create_escapee hlooks
  obtain rfl : linkedEscapee = i₀ := Except.ok.inj (hown.symm.trans hi₀)
  refine ⟨(hdetects.agree escaping create_escapee).trans hlooks, hequipped fun memory hmemory => ?_⟩
  obtain rfl : Memory.blank 65536 = memory := Option.some.inj hmemory
  rw [Memory.size_blank]
  decide

end Instance

end GuestHost

