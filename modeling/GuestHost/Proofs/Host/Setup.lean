import GuestHost.Proofs.Linking
import GuestHost.Proofs.Memory
import GuestHost.Proofs.Wasm.Engine

/-!
# How a host is set up

The functions that a guest may call change only two things about its host: the state behind the
calls and the answer that is on its way to the guest.  What does not depend on those, a
`Host.Stable` property, is kept by all functions of a linked module, `Instance.Linked.keeps`, and so
by whatever export is called with whatever engine, `Instance.Keeping.call`.  Which controls the host
uses and whether the guest shares its memory is such a property, so an instance that is instrumented
stays so, `Instance.create_instrumented`.
-/

namespace GuestHost

open Suspension (Controls Protocol Stash)

/-! ## The functions that a guest may call -/

namespace Suspension.Protocol

variable {σ V R : Type} {p : Protocol σ V} {P : σ → Prop}

/-- A protocol whose controls and whose stash keep a property. -/
structure Keeps (p : Protocol σ V) (P : σ → Prop) : Prop where
  state : p.state.Preserves P
  startUnwind : ∀ ptr, (p.startUnwind ptr).Preserves P
  stopUnwind : p.stopUnwind.Preserves P
  startRewind : ∀ ptr, (p.startRewind ptr).Preserves P
  stopRewind : p.stopRewind.Preserves P
  setStash : ∀ x s, P s → P (p.setStash x s)

namespace Keeps

variable (h : p.Keeps P)

include h

theorem modify_setStash (x : Stash V) : (modify (p.setStash x) : Action σ Unit).Preserves P :=
  .modify (h.setStash x)

theorem expect (expected : State) : (p.expect expected).Preserves P := by
  refine .bind h.state fun actual => ?_
  split
  · exact .throw _
  · exact .pure _

theorem stashPending (outcome : Except Fault V) : (p.stashPending outcome).Preserves P := by
  refine .bind .get fun s => ?_
  split
  · exact h.modify_setStash _
  · exact .throw _

theorem takePending : p.takePending.Preserves P := by
  refine .bind .get fun s => ?_
  split
  · exact .bind (h.modify_setStash _) fun _ => .pure _
  · exact .throw _

theorem takeResolved : p.takeResolved.Preserves P := by
  refine .bind .get fun s => ?_
  split
  · exact .bind (h.modify_setStash _) fun _ => .pure _
  · exact .throw _

theorem intercept {call : Action σ (HostValue V)} (hcall : call.Preserves P) :
    (p.intercept call).Preserves P := by
  refine .bind h.state fun state => ?_
  split
  · exact .bind h.stopRewind fun _ => .bind h.takeResolved fun _ => .pure _
  · refine .bind (h.expect _) fun _ => .bind hcall fun answer => ?_
    cases answer with
    | ready value => exact .pure _
    | pending outcome =>
      exact .bind (h.stashPending _) fun _ => .bind (h.startUnwind _) fun _ => .pure _

theorem settle (result : R) : (p.settle result).Preserves P := by
  refine .bind h.state fun state => ?_
  split
  · exact .bind h.stopUnwind fun _ => .bind h.takePending fun _ => .pure _
  · exact .bind (h.expect _) fun _ => .pure _

variable {call : Action σ R} (hcall : call.Preserves P)

include hcall

theorem resume (outcome : Except Fault V) : (p.resume call outcome).Preserves P :=
  .bind (.liftM _) fun _ => .bind (h.modify_setStash _) fun _ => .bind (h.expect _) fun _ =>
    .bind (h.startRewind _) fun _ => .bind hcall fun result => h.settle result

theorem follow (rounds : Nat) (drive : Drive R V) : (p.follow call rounds drive).Preserves P := by
  induction rounds generalizing drive with
  | zero =>
    cases drive with
    | finished result => exact .pure result
    | awaiting outcome => exact .throw _
  | succ rounds ih =>
    cases drive with
    | finished result => exact .pure result
    | awaiting outcome => exact .bind (h.resume hcall outcome) ih

/-- An export keeps what the controls, the stash and a single call of it keep. -/
theorem drive (rounds : Nat) : (p.drive rounds call).Preserves P := by
  have hbegin : (p.begin call).Preserves P :=
    .bind (h.expect _) fun _ => .bind hcall fun result => h.settle result
  exact .bind hbegin fun drive => h.follow hcall rounds drive

end Keeps

end Suspension.Protocol

namespace Host

/-- A host that uses the given controls, for a guest that shares its memory or does not. -/
structure SetUp (controls : Option Controls) (sharesMemory : Bool) (h : Host) : Prop where
  controls : h.controls = controls
  sharesMemory : h.sharesMemory = sharesMemory

/-- A property of hosts that holds on whatever a guest asks of its host, and whatever answer is put
into the stash or taken out of it. -/
structure Stable (P : Host → Prop) : Prop where
  stash : ∀ h x, P h → P { h with stash := x }
  call : ∀ h m c, P h → P { h with wasi := (Syscall.run h.wasi m c).wasi }
  exit : ∀ h code, P h → P { h with wasi := (h.wasi.exit code).2 }
  flush : ∀ h, P h → P { h with wasi := h.wasi.flush }

theorem stable_setUp (controls : Option Controls) (sharesMemory : Bool) :
    Stable (SetUp controls sharesMemory) where
  stash _ _ h := ⟨h.controls, h.sharesMemory⟩
  call _ _ _ h := ⟨h.controls, h.sharesMemory⟩
  exit _ _ h := ⟨h.controls, h.sharesMemory⟩
  flush _ h := ⟨h.controls, h.sharesMemory⟩

variable {P : Host → Prop} {callback : Callback}

section Callback

variable (hP : Stable P)
  (hcallback : ∀ function args, (callback function args).Preserves (P ·.host))

include hcallback

theorem askState_preserves (c : Controls) : (askState callback c).Preserves (P ·.host) := by
  refine .bind (hcallback _ _) fun values => ?_
  split
  · exact .liftM _
  · exact .throw _

include hP

theorem protocol_keeps (c : Controls) (scratch : Suspension.Scratch) :
    (protocol .whole callback c scratch).Keeps (P ·.host) where
  state := askState_preserves hcallback c
  startUnwind _ := .discard (hcallback _ _)
  stopUnwind := .discard (hcallback _ _)
  startRewind _ := .discard (hcallback _ _)
  stopRewind := .discard (hcallback _ _)
  setStash x s hs := hP.stash s.host x hs

theorem intercepted_preserves {call : Action Store (HostValue (List Wasm.Value))}
    (hcall : call.Preserves (P ·.host)) :
    (intercepted .whole callback call).Preserves (P ·.host) := by
  refine .bind .get fun s => ?_
  dsimp only
  split
  · exact (protocol_keeps hP hcallback _ _).intercept hcall
  · refine .bind hcall fun answer => ?_
    cases answer with
    | ready values => exact .pure _
    | pending _ => exact .throw _

end Callback

theorem answerCall_preserves (hP : Stable P) (call : Syscall) :
    (answerCall call).Preserves (P ·.host) := by
  rintro ⟨_ | memory, globals, fuel, host⟩ hs
  · exact hs
  · exact hP.call host memory call hs

/-- An exit leaves the state that `Wasi.exit` describes, whether it ends the guest or not. -/
theorem apply_answerExit (code : Int32) (s : Store) :
    (answerExit code).apply s =
      (if s.host.wasi.returnOnExit then .error (.exit code) else .ok [],
        setWasi (s.host.wasi.exit code).2 s) := by
  simp only [answerExit, Action.apply_bind, Action.apply_get, Wasi.exit]
  cases s.host.wasi.returnOnExit <;> rfl

end Host

/-- The functions that keep every stable property of the host. -/
def KeepsStable (f : Wasm.HostFunction Host.Store) : Prop := ∀ P, Host.Stable P → f.Keeps P

theorem WasiFunction.keepsStable (f : WasiFunction) : KeepsStable (f.link .plain) := by
  intro P hP callback hcallback args
  dsimp only [link]
  split
  · exact .throw _
  · next call _ =>
    refine .bind .get fun s => ?_
    split
    · exact .throw _
    · exact .bind (Host.intercepted_preserves hP hcallback (Host.answerCall_preserves hP call))
        fun _ => .pure _

theorem HostImport.keepsStable (i : HostImport) : KeepsStable (i.link .plain) := by
  intro P hP callback hcallback args
  have hcount (values : List Wasm.Value) :
      (if values.length = i.type.results.length then pure values
        else Wasm.stop (.resultCount i.key values.length i.type.results.length) :
          Action Host.Store (List Wasm.Value)).Preserves (P ·.host) := by
    split
    · exact .pure _
    · exact .throw _
  refine .bind (Host.intercepted_preserves hP hcallback (.pure _)) fun values => ?_
  cases values with
  | some values => exact .bind (.pure _) hcount
  | none => exact .bind (.liftM _) hcount

theorem exitFunction_keepsStable : KeepsStable (exitFunction .plain) := by
  intro P hP callback hcallback args
  dsimp only [exitFunction]
  split
  · intro s hs
    rw [Host.apply_answerExit]
    exact hP.exit s.host _ hs
  · exact .throw _

theorem unknownImport_keepsStable (key : ImportKey) (type : Wasm.FunctionType) :
    KeepsStable (unknownImport key type) :=
  fun _ _ _ _ _ => .throw _

theorem Definitions.keepsStable {imports : ImportSet} {ds : Definitions}
    (h : ofImports imports = .ok ds) : ∀ d ∈ ds, KeepsStable d.function := by
  obtain ⟨rfl, -⟩ := ofImports_eq h
  intro d hd
  simp only [wasi, List.mem_append, List.mem_map, List.mem_singleton] at hd
  rcases hd with (⟨f, -, rfl⟩ | rfl) | ⟨i, -, rfl⟩
  · exact f.keepsStable
  · exact exitFunction_keepsStable
  · exact i.keepsStable

/-! ## Instances -/

namespace Instance

variable {m : Wasm.Module} {imports : ImportSet} {ds : Definitions} {i : Instance}

/-- How exports run with an engine. -/
@[reducible]
def Manner.on (E : Wasm.Engine Host) : Manner Instance Host.Store :=
  { Manner.plain with invoke := fun i => E.invoke i.environment }

/-- The functions of a linked module keep every stable property of the host. -/
theorem Linked.keeps (h : Linked m imports ds i) {P : Host → Prop} (hP : Host.Stable P) :
    ∀ f, Wasm.Callee.host f ∈ i.environment.functions → f.Keeps P := by
  intro f hf
  rcases h.functions f hf with ⟨d, hd, rfl⟩ | ⟨key, type, rfl⟩
  · exact Definitions.keepsStable h.definitions d hd P hP
  · exact unknownImport_keepsStable key type P hP

theorem Linked.invoke_preserves (h : Linked m imports ds i) {P : Host → Prop}
    (hP : Host.Stable P) (function : Nat) (args : List Wasm.Value) :
    (i.invoke function args).Preserves (P ·.host) :=
  Wasm.Engine.stepping.preserves (h.keeps hP) function args

/-- No run of the guest changes how its host is set up, at whatever point it is stopped. -/
theorem Linked.exec_preserves (h : Linked m imports ds i) (controls : Option Controls)
    (sharesMemory : Bool) (n : Nat) (machine : Wasm.Machine) :
    (Wasm.exec .plain i.environment n machine).Preserves
      (Host.SetUp controls sharesMemory ·.host) :=
  Wasm.exec_preserves (h.keeps (Host.stable_setUp controls sharesMemory)) n machine

/-- The start function keeps what every call of the guest keeps. -/
theorem runStart_preserves (i : Instance) {P : Host.Store → Prop} {invoke : Host.Callback}
    (h : ∀ function args, (invoke function args).Preserves P) :
    (i.runStart invoke).Preserves P := by
  unfold runStart
  split
  · exact .pure _
  · next function _ =>
    intro s hs
    have hrun := h function [] s hs
    simp only [Action.apply_of]
    split
    all_goals
      next hresult =>
      rw [hresult] at hrun
      exact hrun

theorem apply_placeScratch {s s' : Host.Store} (h : placeScratch.apply s = (.ok (), s')) :
    s.host.sharesMemory = true ∧ s'.host = s.host := by
  simp only [placeScratch, Action.apply_of] at h
  split at h
  · next hshares _ =>
    exact ⟨hshares, (congrArg (Wasm.Store.host ∘ Prod.snd) h).symm⟩
  · cases h

/-- Controls are only used for a guest that shares its memory. -/
theorem apply_attach {s s' : Host.Store} (h : i.attach.apply s = (.ok (), s')) :
    (Controls.find i.code = .ok none ∧ s' = s) ∨
      ∃ controls, Controls.find i.code = .ok (some controls) ∧ s.host.sharesMemory = true ∧
        s'.host = { s.host with controls := some controls } := by
  rw [attach, Action.apply_bind, Action.apply_liftM] at h
  rcases hfind : Controls.find i.code with e | _ | controls
  · rw [hfind] at h
    cases h
  · rw [hfind] at h
    cases h
    exact .inl ⟨rfl, rfl⟩
  · rw [hfind] at h
    refine .inr ⟨controls, rfl, ?_⟩
    rcases hplace : placeScratch.apply s with ⟨_ | _, s₁⟩
    · simp only [Action.apply_bind, hplace] at h
      cases h
    · simp only [Action.apply_bind, hplace, Action.apply_modify] at h
      cases h
      obtain ⟨hshares, hhost⟩ := apply_placeScratch hplace
      exact ⟨hshares, by rw [hhost]⟩

/-- Looking for the controls changes nothing else about the host. -/
theorem attach_preserves (i : Instance) {P : Host → Prop}
    (h : ∀ host controls, P host → P { host with controls := some controls }) :
    i.attach.Preserves (P ·.host) := by
  have hplace : Wasm.LeavesHost placeScratch := by
    intro s
    simp only [placeScratch, Action.apply_of]
    split <;> rfl
  refine .bind (.liftM _) fun found => ?_
  cases found with
  | none => exact .pure ()
  | some controls => exact .bind hplace.preserves fun _ => .modify fun s hs => h s.host controls hs

/-- A new instance was linked and set up. -/
theorem create_eq_ok {c : Config} {streams : Table.StandardStreams}
    (h : create c m imports streams = .ok i) :
    ∃ i₀ store, link c m imports streams = .ok i₀ ∧
      (i₀.setUp .whole i₀.invoke).apply i₀.store = (.ok (), store) ∧ i = { i₀ with store } := by
  unfold create at h
  split at h
  · cases h
  · next i₀ hlink =>
    split at h
    · next store hsetup =>
      cases h
      exact ⟨i₀, store, hlink, hsetup, rfl⟩
    · cases h

/-- Setting a module up is to link it, to run its start function and to look for its controls. -/
theorem create_cases {c : Config} {streams : Table.StandardStreams}
    (h : create c m imports streams = .ok i) :
    ∃ i₀ s₁ store, link c m imports streams = .ok i₀ ∧
      (i₀.runStart i₀.invoke).apply i₀.store = (.ok (), s₁) ∧ i₀.attach.apply s₁ = (.ok (), store) ∧
        i = { i₀ with store } := by
  obtain ⟨i₀, store, hlink, hsetup, rfl⟩ := create_eq_ok h
  rw [setUp, Action.apply_bind] at hsetup
  rcases hstart : (i₀.runStart i₀.invoke).apply i₀.store with ⟨_ | _, s₁⟩
  · rw [hstart] at hsetup
    cases hsetup
  · rw [hstart] at hsetup
    exact ⟨i₀, s₁, store, hlink, hstart, hsetup, rfl⟩

/-- An instance of an instrumented module, which uses the controls of the module and shares its
memory. -/
structure Instrumented (m : Wasm.Module) (imports : ImportSet) (ds : Definitions)
    (controls : Controls) (i : Instance) : Prop extends Linked m imports ds i where
  found : Controls.find m = .ok (some controls)
  setUp : i.store.host.SetUp (some controls) true

theorem create_instrumented {c : Config} {streams : Table.StandardStreams}
    (h : create c m imports streams = .ok i) (hi : i.isInstrumented) :
    ∃ controls ds, Instrumented m imports ds controls i := by
  obtain ⟨i₀, s₁, store, hlink, hstart, hattach, rfl⟩ := create_cases h
  obtain ⟨⟨ds, hlinked⟩, hnone⟩ := link_linked hlink
  -- The start function runs before there are any controls, and keeps that there are none.
  have hs₁ : s₁.host.SetUp none i₀.store.host.sharesMemory := by
    have hinvoke := hlinked.invoke_preserves (Host.stable_setUp none i₀.store.host.sharesMemory)
    have hkept := i₀.runStart_preserves hinvoke i₀.store ⟨hnone, rfl⟩
    rw [hstart] at hkept
    exact hkept
  rcases apply_attach hattach with ⟨-, rfl⟩ | ⟨controls, hfind, hshares, hhost⟩
  · rw [isInstrumented, hs₁.controls] at hi
    cases hi
  · have hsetUp : store.host.SetUp (some controls) true := by
      rw [hhost]
      exact ⟨rfl, hshares⟩
    exact ⟨controls, ds, ⟨hlinked.definitions, hlinked.code, hlinked.functions⟩,
      hlinked.code ▸ hfind, hsetUp⟩

/-! ### Setting a module up -/

/-- The memory of a module with one data segment begins with that segment. -/
theorem initialMemory_eq {limits : Wasm.Limits} {segment : Wasm.DataSegment} {maxMemory : Nat}
    {memory : Memory} (hmemories : m.memories = [limits]) (hdata : m.data = [segment])
    (hlimit : limits.min * Wasm.pageSize ≤ maxMemory)
    (hwrite : (Memory.blank (limits.min * Wasm.pageSize)).write segment.offset.toNat segment.bytes =
      .ok memory) : initialMemory m maxMemory = .ok (some memory) := by
  simp only [initialMemory, hmemories, hdata, List.foldlM_cons, List.foldlM_nil,
    Nat.not_lt.2 hlimit, if_false, hwrite]
  rfl

theorem link_eq {c : Config} {streams : Table.StandardStreams} {wasi : Wasi}
    {imported : List (Wasm.HostFunction Host.Store)} {memory : Option Memory}
    (hwasi : Wasi.ofConfig c streams = .ok wasi) (hds : Definitions.ofImports imports = .ok ds)
    (hunknown : c.trapUnknownImports = false) (himported : ds.resolve m = .ok imported)
    (hmemory : initialMemory m c.maxMemory.toNat = .ok memory) :
    link c m imports streams = .ok
      { code := m
        environment := linked m imported c.maxMemory.toNat
        store :=
          { memory
            globals := (m.globals.map Wasm.Global.init).toArray
            fuel := c.fuelLimit.map UInt64.toNat
            host := { wasi, scratch := c.scratch, sharesMemory := m.hasMemory memoryName } } } := by
  simp only [link, hwasi, hds, hunknown, hmemory, bind, Except.bind, Bool.false_eq_true, if_false,
    himported, Except.mapError]
  rfl

/-- Without a start function, nothing runs before the controls are looked for. -/
theorem create_of_attach {c : Config} {streams : Table.StandardStreams} {store : Host.Store}
    (hlink : link c m imports streams = .ok i) (hstart : i.code.start = none)
    (hattach : i.attach.apply i.store = (.ok (), store)) :
    create c m imports streams = .ok { i with store } := by
  have hrun : (i.runStart i.invoke).apply i.store = (.ok (), i.store) := by
    rw [runStart, hstart]
    rfl
  have hsetup : (i.setUp .whole i.invoke).apply i.store = (.ok (), store) := by
    rw [setUp, Action.apply_bind, hrun]
    exact hattach
  rw [create, hlink]
  simp only [hsetup]

theorem create_of_find_none {c : Config} {streams : Table.StandardStreams}
    (hlink : link c m imports streams = .ok i) (hstart : i.code.start = none)
    (hfind : Controls.find i.code = .ok none) : create c m imports streams = .ok i := by
  refine create_of_attach hlink hstart ?_
  rw [attach, Action.apply_bind, Action.apply_liftM, hfind]
  rfl

/-- The instance with its controls, and with the bounds of the scratch region in memory. -/
def armed (i : Instance) (controls : Controls) (memory : Memory) : Instance :=
  { i with
    store :=
      { i.store with
        memory := some memory
        host := { i.store.host with controls := some controls } } }

/-- An instrumented module without a start function can be set up if there is room for the bounds of
its scratch region. -/
theorem create_of_link {c : Config} {streams : Table.StandardStreams} {controls : Controls}
    {memory memory' : Memory} (hlink : link c m imports streams = .ok i)
    (hstart : i.code.start = none) (hfind : Controls.find i.code = .ok (some controls))
    (hshares : i.store.host.sharesMemory = true) (hmemory : i.store.memory = some memory)
    (hbounds : i.store.host.scratch.writeBounds memory = (.ok (), memory')) :
    create c m imports streams = .ok (i.armed controls memory') := by
  have hplace : placeScratch.apply i.store = (.ok (), { i.store with memory := some memory' }) := by
    simp only [placeScratch, Action.apply_of, hshares, hmemory, hbounds]
  refine create_of_attach hlink hstart ?_
  rw [attach, Action.apply_bind, Action.apply_liftM, hfind]
  simp only [Action.apply_bind, hplace, Action.apply_modify]

/-! ### Running exports -/

/-- A linked instance whose host has a property. -/
structure Keeping (m : Wasm.Module) (imports : ImportSet) (ds : Definitions) (P : Host → Prop)
    (i : Instance) : Prop extends Linked m imports ds i where
  host : P i.store.host

namespace Keeping

variable {P : Host → Prop}

theorem withStore (h : Keeping m imports ds P i) {store : Host.Store} (hstore : P store.host) :
    Keeping m imports ds P { i with store } :=
  ⟨⟨h.definitions, h.code, h.functions⟩, hstore⟩

theorem within {α : Type} {a : Action Host.Store α} (ha : a.Preserves (P ·.host)) :
    (a.within part).Preserves (Keeping m imports ds P) :=
  fun i hi => hi.withStore (ha i.store hi.host)

theorem markStarted : Instance.markStarted.Preserves (Keeping m imports ds P) := by
  refine .bind .get fun i => ?_
  split
  · exact .throw _
  · exact .modify fun i hi => ⟨⟨hi.definitions, hi.code, hi.functions⟩, hi.host⟩

variable (E : Wasm.Engine Host) (hP : Host.Stable P)

include hP

/-- A stable property of the host stays, whatever export is called with whatever arguments. -/
theorem call (name : String) (args : List Wasm.Value) :
    ((Manner.on E).call name args).Preserves (Keeping m imports ds P) := by
  refine .get_bind fun i hi => ?_
  have hinvoke := E.preserves (hi.keeps hP)
  have honce (function : Nat) :
      (i.callOnce (E.invoke i.environment) function args).Preserves (P ·.host) := by
    unfold callOnce
    split
    · exact .throw _
    · exact .bind (.liftM _) fun _ => hinvoke _ _
  dsimp only [Manner.on, Manner.plain]
  split
  · next function _ =>
    split
    · next c _ =>
      -- The controls are run by the guest, like the export itself.
      have hprotocol := Host.protocol_keeps hP hinvoke c i.store.host.scratch
      split
      · exact within (honce function)
      · exact within (hprotocol.drive (honce function) roundLimit)
    · exact within (honce function)
  · exact .throw _

theorem runCommand : (Manner.on E).runCommand.Preserves (Keeping m imports ds P) := by
  intro i hi
  have hcall := call E hP commandEntry [] i hi
  exact hcall.withStore (hP.flush _ hcall.host)

theorem start : (Manner.on E).start.Preserves (Keeping m imports ds P) := by
  refine .bind markStarted fun _ => .bind .get fun i => ?_
  dsimp only
  split
  · exact .throw _
  · split
    · exact .throw _
    · exact runCommand E hP

theorem begin : (Manner.on E).begin.Preserves (Keeping m imports ds P) := by
  refine .bind markStarted fun _ => .bind .get fun i => ?_
  dsimp only
  split
  · exact .throw _
  · split
    · exact .discard (call E hP reactorEntry [])
    · exact .pure _

end Keeping

namespace Instrumented

variable {controls : Controls}

theorem of_keeping {α : Type} {a : Action Instance α}
    (ha : a.Preserves (Keeping m imports ds (Host.SetUp (some controls) true))) :
    a.Preserves (Instrumented m imports ds controls) := by
  intro i hi
  have hkept := ha i ⟨hi.toLinked, hi.setUp⟩
  exact ⟨hkept.toLinked, hi.found, hkept.host⟩

variable (E : Wasm.Engine Host)

/-- An instrumented instance stays one, whatever export is called with whatever arguments. -/
theorem call (name : String) (args : List Wasm.Value) :
    ((Manner.on E).call name args).Preserves (Instrumented m imports ds controls) :=
  of_keeping (.call E (Host.stable_setUp _ _) name args)

theorem start : (Manner.on E).start.Preserves (Instrumented m imports ds controls) :=
  of_keeping (.start E (Host.stable_setUp _ _))

theorem begin : (Manner.on E).begin.Preserves (Instrumented m imports ds controls) :=
  of_keeping (.begin E (Host.stable_setUp _ _))

end Instrumented

end Instance

end GuestHost
