import GuestHost.Proofs.Host.Setup
import GuestHost.Proofs.Wasi.Guest
import GuestHost.Proofs.Wasm.Exit

/-!
# What is pending when a guest ends

An output is drained when nothing is pending there, `Wasi.Drained`.  A guest that asks to be ended
leaves drained outputs behind, whatever export was called and whatever engine runs it,
`Instance.call_endsIn`.  However else it ends, all that may be pending is one unfinished line,
`Wasi.Unfinished`: the pending bytes hold no newline.

What a host provides must not itself ask for the guest to be ended, `HostImport.Calm`.
-/

namespace GuestHost

open Suspension (Controls)

/-! ## Outputs -/

/-- The bytes that wait for a newline. -/
def Stream.pending : Stream → Bytes
  | .output o => o.pending
  | .input _ | .file _ => []

namespace Stream

variable {stream stream' : Stream}

theorem pending_seek {offset : Int} {whence : Whence}
    (h : stream.seek offset whence = .ok stream') : stream'.pending = stream.pending := by
  cases stream with
  | input i => cases h; rfl
  | output o => cases h; rfl
  | file f =>
    rw [seek] at h
    cases hseek : f.seek offset whence with
    | error e => rw [hseek] at h; cases h
    | ok f' => rw [hseek] at h; cases h; rfl

theorem pending_read {max : Nat} {delivery : Delivery}
    (h : stream.read max = .ok (delivery, stream')) : stream'.pending = [] := by
  cases stream with
  | input i => cases h; rfl
  | output o => cases h
  | file f => cases h; rfl

theorem pending_write {bs : Bytes} {lines : List Emission}
    (h : stream.write bs = .ok (lines, stream')) : (10 : UInt8) ∉ stream'.pending := by
  cases stream with
  | input i => cases h
  | output o => cases h; exact not_mem_snd_splitLines _
  | file f =>
    rw [write] at h
    cases hwrite : f.write bs with
    | error e => rw [hwrite] at h; cases h
    | ok f' => rw [hwrite] at h; cases h; exact List.not_mem_nil

end Stream

namespace Wasi

/-- Nothing is pending at any output. -/
def Drained (s : Wasi) : Prop := ∀ id d, s.table.get? id = some d → d.stream.pending = []

/-- What is pending at an output is at most one unfinished line. -/
def Unfinished (s : Wasi) : Prop :=
  ∀ id d, s.table.get? id = some d → (10 : UInt8) ∉ d.stream.pending

theorem Drained.unfinished {s : Wasi} (h : s.Drained) : s.Unfinished := by
  intro id d hd
  rw [h id d hd]
  exact List.not_mem_nil

theorem drained_flush (s : Wasi) : s.flush.Drained := by
  intro id d hd
  rw [flush_eq, emit, Table.get?_emptied] at hd
  obtain ⟨d₀, -, rfl⟩ := Option.map_eq_some_iff.1 hd
  change d₀.stream.emptied.pending = []
  cases d₀.stream <;> rfl

variable {s : Wasi} {fd : Nat} {stream : Stream}

theorem Unfinished.setStream (h : s.Unfinished) (hstream : (10 : UInt8) ∉ stream.pending) :
    (s.setStream fd stream).Unfinished := by
  intro id d hd
  rw [Wasi.setStream, Table.get?_setStream] at hd
  split at hd
  · obtain ⟨d₀, -, rfl⟩ := Option.map_eq_some_iff.1 hd
    exact hstream
  · exact h id d hd

/-- No call leaves more than one unfinished line at an output. -/
theorem Unfinished.run (h : s.Unfinished) (m : Memory) (c : Syscall) :
    (Syscall.run s m c).wasi.Unfinished := by
  have htouches := Syscall.run_touches s m c
  generalize (Syscall.run s m c).wasi = s' at htouches ⊢
  cases htouches with
  | nothing => exact h
  | sought hfd hlookup hseek =>
    refine h.setStream ?_
    rw [Stream.pending_seek hseek]
    exact h _ _ (Table.get?_of_lookup hlookup)
  | read hfd hlookup hread =>
    refine h.setStream ?_
    rw [Stream.pending_read hread]
    exact List.not_mem_nil
  | wrote hfd hlookup hwrite => exact h.setStream (Stream.pending_write hwrite)

end Wasi

/-! ## The functions that a guest may call -/

namespace Suspension.Protocol

variable {σ V R : Type} {p : Protocol σ V} {I D : σ → Prop}

/-- A protocol whose controls end in the same as the guest, and whose stash holds no outcome by
which the guest would be ended. -/
structure EndsIn (p : Protocol σ V) (I D : σ → Prop) : Prop where
  state : p.state.EndsIn I D
  startUnwind : ∀ ptr, (p.startUnwind ptr).EndsIn I D
  stopUnwind : p.stopUnwind.EndsIn I D
  startRewind : ∀ ptr, (p.startRewind ptr).EndsIn I D
  stopRewind : p.stopRewind.EndsIn I D
  pending : ∀ s o, I s → p.stash s = .pending o → NoExit o
  setStash : ∀ x s, (∀ o, x = .pending o → NoExit o) → I s → I (p.setStash x s)

namespace EndsIn

variable (h : p.EndsIn I D)

include h

theorem modify_setStash {x : Stash V} (hx : ∀ o, x = .pending o → NoExit o) :
    (modify (p.setStash x) : Action σ Unit).EndsIn I D :=
  .modify fun s => h.setStash x s hx

theorem expect (expected : State) : (p.expect expected).EndsIn I D := by
  refine .bind h.state fun actual => ?_
  split
  · exact .throw (by rintro ⟨code, ⟨⟩⟩)
  · exact .pure _

theorem stashPending {outcome : Except Fault V} (ho : NoExit outcome) :
    (p.stashPending outcome).EndsIn I D := by
  refine .bind .get fun s => ?_
  split
  · refine h.modify_setStash fun o heq => ?_
    cases heq
    exact ho
  · exact .throw (by rintro ⟨code, ⟨⟩⟩)

theorem takePending : p.takePending.EndsWith I D NoExit := by
  refine .get_bind fun s hs => ?_
  split
  · next outcome hstash =>
    exact Action.EndsWith.bind (h.modify_setStash nofun) fun _ _ => .pure (h.pending s _ hs hstash)
  · exact .throw (by rintro ⟨code, ⟨⟩⟩)

theorem takeResolved : p.takeResolved.EndsIn I D := by
  refine .bind .get fun s => ?_
  split
  · exact .bind (h.modify_setStash nofun) fun _ => .pure _
  · exact .throw (by rintro ⟨code, ⟨⟩⟩)

theorem intercept {call : Action σ (HostValue V)}
    (hcall : call.EndsWith I D fun answer => ∀ o, answer = .pending o → NoExit o) :
    (p.intercept call).EndsIn I D := by
  refine .bind h.state fun state => ?_
  split
  · exact .bind h.stopRewind fun _ => .bind h.takeResolved fun _ => .pure _
  · refine .bind (h.expect _) fun _ => hcall.bind fun answer hanswer => ?_
    cases answer with
    | ready value => exact .pure trivial
    | pending outcome =>
      refine Action.EndsIn.bind (h.stashPending (hanswer outcome rfl)) fun _ => ?_
      exact .bind (h.startUnwind _) fun _ => .pure _

/-- What an export awaits would not end the guest. -/
theorem settle (result : R) :
    (p.settle result).EndsWith I D fun d => ∀ o, d = .awaiting o → NoExit o := by
  refine Action.EndsWith.bind h.state fun state _ => ?_
  split
  · refine Action.EndsWith.bind h.stopUnwind fun _ _ => h.takePending.bind fun outcome ho => ?_
    refine .pure fun o heq => ?_
    cases heq
    exact ho
  · exact Action.EndsWith.bind (h.expect _) fun _ _ => .pure nofun

variable {call : Action σ R} (hcall : call.EndsIn I D)

include hcall

theorem resume {outcome : Except Fault V} (ho : NoExit outcome) :
    (p.resume call outcome).EndsWith I D fun d => ∀ o, d = .awaiting o → NoExit o := by
  refine Action.EndsWith.bind (Action.EndsIn.liftM ho) fun value _ => ?_
  refine Action.EndsWith.bind (h.modify_setStash nofun) fun _ _ => ?_
  refine Action.EndsWith.bind (h.expect _) fun _ _ => ?_
  refine Action.EndsWith.bind (h.startRewind _) fun _ _ => ?_
  exact Action.EndsWith.bind hcall fun result _ => h.settle result

theorem follow (rounds : Nat) {d : Drive R V} (hd : ∀ o, d = .awaiting o → NoExit o) :
    (p.follow call rounds d).EndsIn I D := by
  induction rounds generalizing d with
  | zero =>
    cases d with
    | finished result => exact .pure result
    | awaiting outcome => exact .throw (Wasm.not_isExit_trap _)
  | succ rounds ih =>
    cases d with
    | finished result => exact .pure result
    | awaiting outcome => exact (h.resume hcall (hd outcome rfl)).bind fun d hd => ih hd

theorem drive (rounds : Nat) : (p.drive rounds call).EndsIn I D := by
  have hbegin : (p.begin call).EndsWith I D fun d => ∀ o, d = .awaiting o → NoExit o :=
    Action.EndsWith.bind (h.expect _) fun _ _ =>
      Action.EndsWith.bind hcall fun result _ => h.settle result
  exact hbegin.bind fun d hd => h.follow hcall rounds hd

end EndsIn

end Suspension.Protocol

/-- Each output holds at most an unfinished line, and no awaited outcome would end the guest. -/
structure Host.Calm (h : Host) : Prop where
  unfinished : h.wasi.Unfinished
  stash : ∀ o, h.stash = .pending o → NoExit o

/-- Nothing is pending at any output. -/
def Host.Drained (h : Host) : Prop := h.wasi.Drained

/-- A function that does not itself ask for the guest to be ended. -/
def HostImport.Calm (i : HostImport) : Prop := ∀ args o, i.answer args = .pending o → NoExit o

theorem Suspension.State.noExit_ofCode (code : Int32) : NoExit (ofCode code) := by
  unfold ofCode
  split
  · exact .ok _
  · rintro _ ⟨⟩ ⟨code, ⟨⟩⟩

theorem noExit_unwindingResults (types : List Wasm.ValueType) :
    NoExit (unwindingResults types) := by
  unfold unwindingResults
  split
  · rintro _ ⟨⟩ ⟨code, ⟨⟩⟩
  · exact .ok _

namespace Host

section Callback

variable {callback : Callback}
  (hcallback : ∀ function args, (callback function args).EndsIn (Calm ·.host) (Drained ·.host))

include hcallback

theorem askState_endsIn (c : Controls) :
    (askState callback c).EndsIn (Calm ·.host) (Drained ·.host) := by
  refine .bind (hcallback _ _) fun values => ?_
  split
  · exact .liftM (Suspension.State.noExit_ofCode _)
  · exact Wasm.endsIn_stop _

theorem protocol_endsIn (c : Controls) (scratch : Suspension.Scratch) :
    (protocol .whole callback c scratch).EndsIn (Calm ·.host) (Drained ·.host) where
  state := askState_endsIn hcallback c
  startUnwind _ := .discard (hcallback _ _)
  stopUnwind := .discard (hcallback _ _)
  startRewind _ := .discard (hcallback _ _)
  stopRewind := .discard (hcallback _ _)
  pending _ o hs := hs.stash o
  setStash _ _ hx hs := ⟨hs.unfinished, hx⟩

theorem intercepted_endsIn {call : Action Store (HostValue (List Wasm.Value))}
    (hcall : call.EndsWith (Calm ·.host) (Drained ·.host) fun answer =>
      ∀ o, answer = .pending o → NoExit o) :
    (intercepted .whole callback call).EndsIn (Calm ·.host) (Drained ·.host) := by
  refine .bind .get fun s => ?_
  dsimp only
  split
  · exact (protocol_endsIn hcallback _ _).intercept hcall
  · refine hcall.bind fun answer _ => ?_
    cases answer with
    | ready values => exact .pure trivial
    | pending _ => exact .throw (by rintro ⟨code, ⟨⟩⟩)

end Callback

theorem answerCall_endsWith (call : Syscall) :
    (answerCall call).EndsWith (Calm ·.host) (Drained ·.host) fun answer =>
      ∀ o, answer = .pending o → NoExit o := by
  rintro ⟨_ | memory, globals, fuel, host⟩ hs
  · refine ⟨hs, ?_, nofun⟩
    rintro _ ⟨⟩ ⟨code, ⟨⟩⟩
  · refine ⟨⟨hs.unfinished.run memory call, hs.stash⟩, nofun, ?_⟩
    rintro _ ⟨⟩ _ ⟨⟩

end Host

/-- A function that leaves a calm host calm, and drained outputs if it ends the guest. -/
def EndsDrained (f : Wasm.HostFunction Host.Store) : Prop := f.EndsIn Host.Calm Host.Drained

theorem WasiFunction.endsDrained (f : WasiFunction) : EndsDrained (f.link .plain) := by
  intro callback hcallback args
  dsimp only [link]
  split
  · exact Wasm.endsIn_stop _
  · next call _ =>
    refine .bind .get fun s => ?_
    split
    · exact .throw (by rintro ⟨code, ⟨⟩⟩)
    · exact .bind (Host.intercepted_endsIn hcallback (Host.answerCall_endsWith call))
        fun _ => .pure _

/-- A guest that is not instrumented is given the answer to its system call. -/
theorem WasiFunction.apply_call_link {f : WasiFunction} {call : Syscall} {args : List Wasm.Value}
    {callback : Host.Callback} {s : Host.Store} {memory : Memory} {r : Syscall.Result}
    (hcall : f.call args = some call) (hmemory : s.memory = some memory)
    (hshares : s.host.sharesMemory = true) (hcontrols : s.host.controls = none)
    (hr : call.run s.host.wasi memory = r) :
    ((f.link .plain).call callback args).apply s =
      (.ok [.i32 (.ofNat r.errno.code)],
        { s with memory := some r.memory, host := { s.host with wasi := r.wasi } }) := by
  obtain ⟨_, globals, fuel, host⟩ := s
  dsimp only at hmemory hshares hcontrols hr
  subst hmemory hr
  simp only [Wasm.HostFunction.call, link, hcall, Action.apply_bind, Action.apply_get, hshares,
    Bool.not_true, Bool.false_eq_true, if_false, Host.intercepted, hcontrols, Host.answerCall,
    Action.apply_of, Action.apply_pure]
  rfl

/-- The outputs are flushed before the guest is ended. -/
theorem exitFunction_endsDrained : EndsDrained (exitFunction .plain) := by
  intro callback hcallback args
  dsimp only [exitFunction]
  split
  · next code =>
    refine .of_ensures fun s hs => ?_
    rw [Host.apply_answerExit]
    have hdrained : (s.host.wasi.exit code.toInt32).2.Drained := Wasi.drained_flush _
    exact ⟨⟨hdrained.unfinished, hs.stash⟩, fun _ _ _ => hdrained⟩
  · exact Wasm.endsIn_stop _

theorem HostImport.Calm.endsDrained {i : HostImport} (h : i.Calm) :
    EndsDrained (i.link .plain) := by
  intro callback hcallback args
  have hcount (values : List Wasm.Value) :
      (if values.length = i.type.results.length then pure values
        else Wasm.stop (.resultCount i.key values.length i.type.results.length) :
          Action Host.Store (List Wasm.Value)).EndsIn (Host.Calm ·.host) (Host.Drained ·.host) := by
    split
    · exact .pure _
    · exact Wasm.endsIn_stop _
  refine .bind (Host.intercepted_endsIn hcallback (.pure (h args))) fun values => ?_
  cases values with
  | some values => exact .bind (.pure _) hcount
  | none => exact .bind (.liftM (noExit_unwindingResults _)) hcount

theorem unknownImport_endsDrained (key : ImportKey) (type : Wasm.FunctionType) :
    EndsDrained (unknownImport key type) :=
  fun _ _ _ => Wasm.endsIn_stop _

theorem Definitions.endsDrained {imports : ImportSet} {ds : Definitions}
    (h : ofImports imports = .ok ds) (hcalm : ∀ i ∈ imports.entries, i.Calm) :
    ∀ d ∈ ds, EndsDrained d.function := by
  obtain ⟨rfl, -⟩ := ofImports_eq h
  intro d hd
  simp only [wasi, List.mem_append, List.mem_map, List.mem_singleton] at hd
  rcases hd with (⟨f, -, rfl⟩ | rfl) | ⟨i, hi, rfl⟩
  · exact f.endsDrained
  · exact exitFunction_endsDrained
  · exact (hcalm i hi).endsDrained

/-! ## Instances -/

namespace Instance

variable {m : Wasm.Module} {imports : ImportSet} {ds : Definitions} {i : Instance}

theorem Linked.endsDrained (h : Linked m imports ds i) (hcalm : ∀ i ∈ imports.entries, i.Calm) :
    ∀ f, Wasm.Callee.host f ∈ i.environment.functions → EndsDrained f := by
  intro f hf
  rcases h.functions f hf with ⟨d, hd, rfl⟩ | ⟨key, type, rfl⟩
  · exact Definitions.endsDrained h.definitions hcalm d hd
  · exact unknownImport_endsDrained key type

/-- A module is set up with a calm host, if it was linked with one. -/
theorem Linked.setUp_calm (h : Linked m imports ds i) (hcalm : ∀ i ∈ imports.entries, i.Calm)
    (E : Wasm.Engine Host) :
    (i.setUp .whole (E.invoke i.environment)).Preserves (Host.Calm ·.host) := by
  have hinvoke := E.endsIn (h.endsDrained hcalm)
  refine .bind (i.runStart_preserves fun function args => (hinvoke function args).preserves) ?_
  exact fun _ => i.attach_preserves fun host controls hhost => ⟨hhost.unfinished, hhost.stash⟩

/-- An instance with a calm host. -/
structure Calm (m : Wasm.Module) (imports : ImportSet) (ds : Definitions) (i : Instance) : Prop
    extends Linked m imports ds i where
  host : i.store.host.Calm

/-- The outputs of an instance are drained. -/
def Drained (i : Instance) : Prop := i.wasi.Drained

theorem flush_drained (i : Instance) : i.flush.Drained := Wasi.drained_flush _

section Running

variable (hcalm : ∀ i ∈ imports.entries, i.Calm)

theorem within_endsIn {α : Type} {a : Action Host.Store α}
    (ha : a.EndsIn (Host.Calm ·.host) (Host.Drained ·.host)) :
    (a.within part).EndsIn (Calm m imports ds) Drained := by
  refine .of_ensures fun i hi => ?_
  obtain ⟨hI, hD, -⟩ := ha i.store hi.host
  exact ⟨⟨⟨hi.definitions, hi.code, hi.functions⟩, hI⟩, hD⟩

theorem noExit_checkArguments (type : Wasm.FunctionType) (args : List Wasm.Value) :
    NoExit (checkArguments type args) := by
  unfold checkArguments
  split
  · rintro _ ⟨⟩ ⟨code, ⟨⟩⟩
  · split
    · exact .ok _
    · rintro _ ⟨⟩ ⟨code, ⟨⟩⟩

theorem markStarted_endsIn : markStarted.EndsIn (Calm m imports ds) Drained := by
  refine .bind .get fun i => ?_
  split
  · exact .throw (by rintro ⟨code, ⟨⟩⟩)
  · exact .modify fun i hi => ⟨⟨hi.definitions, hi.code, hi.functions⟩, hi.host⟩

variable (E : Wasm.Engine Host)

include hcalm

/-- Whatever export is called, a guest that asks to be ended leaves drained outputs. -/
theorem call_endsIn (name : String) (args : List Wasm.Value) :
    ((Manner.on E).call name args).EndsIn (Calm m imports ds) Drained := by
  refine .get_bind fun i hi => ?_
  have hinvoke := E.endsIn (hi.endsDrained hcalm)
  have honce (function : Nat) :
      (i.callOnce (E.invoke i.environment) function args).EndsIn (Host.Calm ·.host)
        (Host.Drained ·.host) := by
    unfold callOnce
    split
    · exact Wasm.endsIn_stop _
    · exact .bind (.liftM (noExit_checkArguments _ _)) fun _ => hinvoke _ _
  dsimp only [Manner.on, Manner.plain]
  split
  · next function _ =>
    split
    · next c _ =>
      have hprotocol := Host.protocol_endsIn hinvoke c i.store.host.scratch
      split
      · exact within_endsIn (honce function)
      · exact within_endsIn (hprotocol.drive (honce function) roundLimit)
    · exact within_endsIn (honce function)
  · exact .throw (by rintro ⟨code, ⟨⟩⟩)

theorem begin_endsIn : (Manner.on E).begin.EndsIn (Calm m imports ds) Drained := by
  refine .bind markStarted_endsIn fun _ => .bind .get fun i => ?_
  dsimp only
  split
  · exact .throw (by rintro ⟨code, ⟨⟩⟩)
  · split
    · exact .discard (call_endsIn hcalm E reactorEntry [])
    · exact .pure _

end Running

/-! ## Newly made instances -/

theorem unfinished_ofConfig {c : Config} {source : LineSource} {out err : Sink} {s : Wasi}
    (h : Wasi.ofConfig c (.over source out err) = .ok s) : s.Unfinished := by
  obtain ⟨s', free, hs', -, htable⟩ := Wasi.ofConfig_over c (.over source out err)
  rw [h] at hs'
  cases hs'
  intro id d hd
  rw [htable, Table.get?_ofList] at hd
  have hmem := List.mem_of_getElem? hd
  simp only [Table.standards, List.mem_cons, List.not_mem_nil, or_false] at hmem
  rcases hmem with rfl | rfl | rfl <;> exact List.not_mem_nil

theorem link_calm {c : Config} {source : LineSource} {out err : Sink}
    (h : link c m imports (.over source out err) = .ok i) :
    i.store.host.Calm ∧ i.started = false := by
  unfold link at h
  obtain ⟨wasi, hwasi, h⟩ := bind_eq_ok h
  obtain ⟨ds, -, h⟩ := bind_eq_ok h
  obtain ⟨imported, -, h⟩ := bind_eq_ok h
  obtain ⟨memory, -, h⟩ := bind_eq_ok h
  cases h
  exact ⟨⟨unfinished_ofConfig hwasi, nofun⟩, rfl⟩

theorem create_calm {c : Config} {source : LineSource} {out err : Sink}
    (hcalm : ∀ i ∈ imports.entries, i.Calm)
    (h : create c m imports (.over source out err) = .ok i) :
    (∃ ds, Calm m imports ds i) ∧ i.started = false := by
  obtain ⟨i₀, store, hlink, hsetup, rfl⟩ := create_eq_ok h
  obtain ⟨⟨ds, hlinked⟩, -⟩ := link_linked hlink
  obtain ⟨hhost, hstarted⟩ := link_calm hlink
  have hkeeps : (i₀.setUp .whole i₀.invoke).Preserves (Host.Calm ·.host) :=
    hlinked.setUp_calm hcalm .stepping
  have hstore := hkeeps i₀.store hhost
  rw [hsetup] at hstore
  exact ⟨⟨ds, ⟨hlinked.definitions, hlinked.code, hlinked.functions⟩, hstore⟩, hstarted⟩

end Instance

end GuestHost
