import GuestHost.Proofs.Host.Setup
import GuestHost.Proofs.Suspension.Scratch

/-!
# Imports under the rules of suspension

A function is `Guarded` if it does nothing for a guest that unwinds, and hands the answer in the
stash to a guest that rewinds.  The functions of WASI are, and so is what a host provides, whatever
it does and in whatever state it does it, `Host.guarded_wasi` and `Host.guarded_link`.

All functions that an instrumented guest may import are guarded but one:
`Instance.guarded_iff_ne_exit`.  The exception is the function by which a guest asks to be ended,
which does not ask what the guest is doing, `exits_unwinding`.
-/

namespace GuestHost

open Suspension (Controls State)
open Wasm (Value ValueType HostFunction)

/-! ## Interception -/

namespace Suspension.Protocol

variable {σ V : Type} (p : Protocol σ V)

/-- What is left to do once a guest was told to stop rewinding: its answer is taken out of the
stash. -/
def handBack : Except Fault Unit × σ → Except Fault (Option V) × σ
  | (.error e, s) => (.error e, s)
  | (.ok (), s) =>
    match p.stash s with
    | .resolved value => (.ok (some value), p.setStash .empty s)
    | _ => (.error (.suspension .nothingResolved), s)

variable {p} {s s₁ s₂ : σ}

theorem apply_intercept_unwinding (h₁ : p.state.apply s = (.ok .unwinding, s₁))
    (h₂ : p.state.apply s₁ = (.ok .unwinding, s₂)) (call : Action σ (HostValue V)) :
    (p.intercept call).apply s = (.error (.suspensionState .normal .unwinding), s₂) := by
  have hexpect : (p.expect .normal).apply s₁ =
      (.error (.suspensionState .normal .unwinding), s₂) := by
    rw [expect, Action.apply_bind, h₂]
    rfl
  rw [intercept, Action.apply_bind, h₁]
  simp only [reduceCtorEq, if_false]
  rw [Action.apply_bind, hexpect]

theorem apply_intercept_rewinding (h₁ : p.state.apply s = (.ok .rewinding, s₁))
    (call : Action σ (HostValue V)) :
    (p.intercept call).apply s = p.handBack (p.stopRewind.apply s₁) := by
  rw [intercept, Action.apply_bind, h₁]
  simp only [if_true]
  rw [Action.apply_bind]
  rcases p.stopRewind.apply s₁ with ⟨e | _, s₂⟩
  · rfl
  · simp only [Action.apply_bind, takeResolved, Action.apply_get, handBack]
    cases p.stash s₂ <;> rfl

end Suspension.Protocol

namespace Host

variable {τ : Type} (store : Part τ Store)

/-- The guest answers that it is in the given state, and leaves the second state behind. -/
def Answers (callback : Wasm.Callback τ) (controls : Controls) (t : τ) (state : State) (t' : τ) :
    Prop :=
  (askState callback controls).apply t = (.ok state, t')

/-- The function only hands back the answer in the stash, after the guest was told to stop
rewinding: the values are its results if they have the right types, and without an answer it
fails. -/
inductive HandsBack (types : List ValueType) :
    Except Fault Unit × τ → Except Fault (List Value) × τ → Prop where
  | failed {e : Fault} {t : τ} : HandsBack types (.error e, t) (.error e, t)
  | nothing {t : τ} (h : ∀ values, (store.get t).host.stash ≠ .resolved values) :
      HandsBack types (.ok (), t) (.error (.suspension .nothingResolved), t)
  | answer {t : τ} {values : List Value} {r : Except Fault (List Value)}
      (h : (store.get t).host.stash = .resolved values)
      (hr : values.map Value.type = types → r = .ok values) :
      HandsBack types (.ok (), t) (r, store.set (setStash .empty (store.get t)) t)

/-- A function of the host that obeys the rules of suspension, whatever the guest is and wherever it
calls the function.  All that is done is what the guest does when it is called back, so nothing else
has happened to the state around the store either. -/
structure Guarded (controls : Controls) (f : HostFunction τ) : Prop where
  /-- For a guest that unwinds it fails, and the host does nothing. -/
  unwinding : ∀ (callback : Wasm.Callback τ) (args : List Value) (t t₁ t₂ : τ),
    (store.get t).host.SetUp (some controls) true → args.map Value.type = f.type.params →
    Answers callback controls t .unwinding t₁ → Answers callback controls t₁ .unwinding t₂ →
    (f.call callback args).apply t = (.error (.suspensionState .normal .unwinding), t₂)
  /-- For a guest that rewinds it stops the rewind and hands back the answer. -/
  rewinding : ∀ (callback : Wasm.Callback τ) (args : List Value) (t t₁ : τ),
    (store.get t).host.SetUp (some controls) true → args.map Value.type = f.type.params →
    Answers callback controls t .rewinding t₁ →
    HandsBack store f.type.results ((discard (callback controls.stopRewind [])).apply t₁)
      ((f.call callback args).apply t)

theorem mismatch?_of_types {types : List ValueType} {values : List Value}
    (h : values.map Value.type = types) : Wasm.mismatch? types values = none := by
  subst h
  induction values with
  | nil => rfl
  | cons value values ih =>
    simp only [List.map_cons, Wasm.mismatch?, if_true]
    exact ih

variable {store} {controls : Controls} {callback : Wasm.Callback τ} {t t₁ t₂ : τ}
  {call : Action τ (HostValue (List Value))} {f : HostFunction τ}

theorem apply_intercepted (ht : (store.get t).host.controls = some controls) :
    (intercepted store callback call).apply t =
      ((protocol store callback controls (store.get t).host.scratch).intercept call).apply t := by
  rw [intercepted, Action.apply_bind, Action.apply_get]
  simp only [ht]

theorem apply_call_of_error {args : List Value} {e : Fault}
    (h : (f.run callback args).apply t = (.error e, t₁)) :
    (f.call callback args).apply t = (.error e, t₁) := by
  rw [HostFunction.call, Action.apply_bind, h]

/-- The check on the results leaves the state alone and lets results of the right types pass. -/
theorem apply_call {args : List Value} {r : Except Fault (List Value)}
    (h : (f.run callback args).apply t = (r, t₁)) :
    ∃ r', (f.call callback args).apply t = (r', t₁) ∧
      ∀ values, values.map Value.type = f.type.results → r = .ok values → r' = .ok values := by
  rw [HostFunction.call, Action.apply_bind, h]
  cases r with
  | error e => exact ⟨.error e, rfl, fun _ _ hvalues => hvalues⟩
  | ok results =>
    dsimp only
    cases hmismatch : Wasm.mismatch? f.type.results results with
    | none => exact ⟨.ok results, rfl, fun _ _ hvalues => hvalues⟩
    | some found =>
      refine ⟨_, rfl, fun values htypes hvalues => ?_⟩
      cases hvalues
      rw [mismatch?_of_types htypes] at hmismatch
      cases hmismatch

/-- A function is guarded if all that it does is to pass on what it intercepts. -/
theorem guarded_of_intercepted (finish : Option (List Value) → Action τ (List Value))
    (hrun : ∀ (callback : Wasm.Callback τ) (args : List Value) (t : τ),
      (store.get t).host.SetUp (some controls) true → args.map Value.type = f.type.params →
      ∃ call, (f.run callback args).apply t = (intercepted store callback call >>= finish).apply t)
    (hfinish : ∀ (values : List Value) (t : τ), ∃ r, (finish (some values)).apply t = (r, t) ∧
      (values.map Value.type = f.type.results → r = .ok values)) : Guarded store controls f where
  unwinding callback args t t₁ t₂ ht hargs h₁ h₂ := by
    obtain ⟨call, hrun⟩ := hrun callback args t ht hargs
    have hintercept := Suspension.Protocol.apply_intercept_unwinding
      (p := protocol store callback controls (store.get t).host.scratch) h₁ h₂ call
    apply apply_call_of_error
    rw [hrun, Action.apply_bind, apply_intercepted ht.controls, hintercept]
  rewinding callback args t t₁ ht hargs h₁ := by
    obtain ⟨call, hrun⟩ := hrun callback args t ht hargs
    -- Whatever the host would have answered, `call` is not run for a guest that rewinds.
    have hintercept := Suspension.Protocol.apply_intercept_rewinding
      (p := protocol store callback controls (store.get t).host.scratch) h₁ call
    rw [Action.apply_bind, apply_intercepted ht.controls, hintercept] at hrun
    dsimp only [protocol] at hrun
    rcases hstop : (discard (callback controls.stopRewind [])).apply t₁ with ⟨e | _, t₂⟩
    · rw [hstop] at hrun
      rw [apply_call_of_error hrun]
      exact .failed
    · rw [hstop] at hrun
      simp only [Suspension.Protocol.handBack] at hrun
      cases hstash : (store.get t₂).host.stash with
      | resolved values =>
        obtain ⟨r, hr, htyped⟩ := hfinish values (store.set (setStash .empty (store.get t₂)) t₂)
        simp only [hstash, hr] at hrun
        obtain ⟨r', hr', hpass⟩ := apply_call hrun
        rw [hr']
        exact .answer hstash fun htypes => hpass values htypes (htyped htypes)
      | empty =>
        simp only [hstash] at hrun
        rw [apply_call_of_error hrun]
        exact .nothing (by simp [hstash])
      | pending outcome =>
        simp only [hstash] at hrun
        rw [apply_call_of_error hrun]
        exact .nothing (by simp [hstash])

end Host

/-! ## The functions that can be imported -/

namespace WasiFunction

theorem eq_i32_cons {args : List Value} {types : List ValueType}
    (h : args.map Value.type = .i32 :: types) :
    ∃ word rest, args = .i32 word :: rest ∧ rest.map Value.type = types := by
  obtain ⟨value, rest, rfl, hvalue, hrest⟩ := List.map_eq_cons_iff.1 h
  cases value <;> cases hvalue
  exact ⟨_, rest, rfl, hrest⟩

theorem eq_i64_cons {args : List Value} {types : List ValueType}
    (h : args.map Value.type = .i64 :: types) :
    ∃ word rest, args = .i64 word :: rest ∧ rest.map Value.type = types := by
  obtain ⟨value, rest, rfl, hvalue, hrest⟩ := List.map_eq_cons_iff.1 h
  cases value <;> cases hvalue
  exact ⟨_, rest, rfl, hrest⟩

variable {args : List Value}

theorem eq_i32_nil (h : args.map Value.type = [.i32]) : ∃ a, args = [.i32 a] := by
  obtain ⟨a, rest, rfl, h₀⟩ := eq_i32_cons h
  exact ⟨a, by rw [List.map_eq_nil_iff.1 h₀]⟩

theorem exists_call_ofTwo {name : String} {call : UInt32 → UInt32 → Syscall}
    (h : args.map Value.type = [.i32, .i32]) : ∃ c, (ofTwo name call).call args = some c := by
  obtain ⟨a, rest, rfl, h₁⟩ := eq_i32_cons h
  obtain ⟨b, rfl⟩ := eq_i32_nil h₁
  exact ⟨call a b, rfl⟩

theorem exists_call_ofFour {name : String} {call : UInt32 → UInt32 → UInt32 → UInt32 → Syscall}
    (h : args.map Value.type = [.i32, .i32, .i32, .i32]) :
    ∃ c, (ofFour name call).call args = some c := by
  obtain ⟨a, rest, rfl, h₃⟩ := eq_i32_cons h
  obtain ⟨b, rest, rfl, h₂⟩ := eq_i32_cons h₃
  obtain ⟨c, rest, rfl, h₁⟩ := eq_i32_cons h₂
  obtain ⟨d, rfl⟩ := eq_i32_nil h₁
  exact ⟨call a b c d, rfl⟩

/-- Arguments of the right types make a call. -/
theorem exists_call {f : WasiFunction} (hf : f ∈ all) (h : args.map Value.type = f.params) :
    ∃ c, f.call args = some c := by
  simp only [all, List.mem_cons, List.not_mem_nil, or_false] at hf
  rcases hf with rfl | rfl | rfl | rfl | rfl | rfl | rfl | rfl | rfl | rfl | rfl | rfl
  · exact exists_call_ofTwo h
  · exact exists_call_ofTwo h
  · exact exists_call_ofTwo h
  · exact exists_call_ofTwo h
  · obtain ⟨fd, rfl⟩ := eq_i32_nil h
    exact ⟨.fdClose fd, rfl⟩
  · exact exists_call_ofTwo h
  · exact exists_call_ofTwo h
  · obtain ⟨fd, rest, rfl, h₂⟩ := eq_i32_cons h
    obtain ⟨path, rest, rfl, h₁⟩ := eq_i32_cons h₂
    obtain ⟨len, rfl⟩ := eq_i32_nil h₁
    exact ⟨.fdPrestatDirName fd path len, rfl⟩
  · obtain ⟨fd, rest, rfl, h₃⟩ := eq_i32_cons h
    obtain ⟨offset, rest, rfl, h₂⟩ := eq_i64_cons h₃
    obtain ⟨whence, rest, rfl, h₁⟩ := eq_i32_cons h₂
    obtain ⟨newOffset, rfl⟩ := eq_i32_nil h₁
    exact ⟨.fdSeek fd offset.toInt64 (whenceByte whence) newOffset, rfl⟩
  · exact exists_call_ofTwo h
  · exact exists_call_ofFour h
  · exact exists_call_ofFour h

end WasiFunction

namespace Host

variable {τ : Type} (k : Manner τ)

/-- The functions of WASI that answer with an error number are guarded, however calls are
answered. -/
theorem guarded_wasi {f : WasiFunction} (hf : f ∈ WasiFunction.all) (controls : Controls) :
    Guarded k.store controls (f.link k) := by
  refine guarded_of_intercepted (fun values => pure [.i32 (firstWord values)])
    (fun callback args t ht hargs => ?_) (fun values t => ?_)
  · obtain ⟨call, hcall⟩ := WasiFunction.exists_call hf hargs
    refine ⟨k.call call, ?_⟩
    simp only [WasiFunction.link, hcall]
    rw [Action.apply_bind, Action.apply_get]
    simp only [ht.sharesMemory, Bool.not_true, Bool.false_eq_true, if_false]
  · refine ⟨.ok [.i32 (firstWord (some values))], rfl, fun htypes => ?_⟩
    obtain ⟨word, rfl⟩ := WasiFunction.eq_i32_nil htypes
    rfl

/-- The functions that a host provides are guarded, whatever they do. -/
theorem guarded_link (i : HostImport) (controls : Controls) :
    Guarded k.store controls (i.link k) := by
  refine guarded_of_intercepted _
    (fun callback args t ht hargs => ⟨k.provided i args, rfl⟩) (fun values t => ?_)
  by_cases hcount : values.length = i.type.results.length
  · refine ⟨.ok values, ?_, fun _ => rfl⟩
    simp only [pure_bind, hcount, if_true]
    rfl
  · refine ⟨_, by simp only [pure_bind, hcount, if_false]; rfl, fun htypes => ?_⟩
    have hlength := congrArg List.length htypes
    rw [List.length_map] at hlength
    exact absurd hlength hcount

/-- A guest that unwinds can still ask to be ended. -/
theorem not_guarded_exit (controls : Controls) :
    ¬ Guarded .whole controls (exitFunction .plain) := by
  intro h
  let callback : Callback := fun _ _ => pure [.i32 1]
  let s : Store := { host := { wasi := default, controls := some controls, sharesMemory := true } }
  have hanswers : Answers callback controls s .unwinding s := rfl
  have hcall := h.unwinding callback [.i32 0] s s s ⟨rfl, rfl⟩ rfl hanswers hanswers
  cases hcall

end Host

namespace Definitions

/-- Only the function by which a guest asks to be ended has its key. -/
theorem key_ne_exit {f : WasiFunction} (hf : f ∈ WasiFunction.all) :
    wasiKey f.name ≠ wasiKey Wasi.exitName := by
  have hnames : ∀ f ∈ WasiFunction.all, f.name ≠ Wasi.exitName := by decide
  exact fun hkey => hnames f hf (congrArg ImportKey.name hkey)

theorem guarded_iff {imports : ImportSet} {ds : Definitions} (h : ofImports imports = .ok ds)
    (controls : Controls) :
    ∀ d ∈ ds, Host.Guarded .whole controls d.function ↔ d.key ≠ wasiKey Wasi.exitName := by
  obtain ⟨rfl, hfree⟩ := ofImports_eq h
  intro d hd
  simp only [wasi, List.mem_append, List.mem_map, List.mem_singleton] at hd
  rcases hd with (⟨f, hf, rfl⟩ | rfl) | ⟨i, hi, rfl⟩
  · exact iff_of_true (Host.guarded_wasi .plain hf controls) (key_ne_exit hf)
  · exact iff_of_false (Host.not_guarded_exit controls) (not_not.2 rfl)
  · refine iff_of_true (Host.guarded_link .plain i controls) fun hkey => ?_
    have htaken : wasi.contains i.key = true := by
      simp only at hkey
      rw [hkey]
      decide
    rw [hfree i hi] at htaken
    cases htaken

end Definitions

/-! ## Instances -/

namespace Instance

/-- A module whose command begins to unwind by itself and then asks to be ended with the code 3. -/
def escapee : Wasm.Module where
  imports := [(Definitions.wasiKey Wasi.exitName, .function ⟨[.i32], []⟩)]
  memories := [{ min := 1 }]
  globals := [⟨.i32, true, .i32 0⟩]
  exports := [("memory", .memory 0), ("_start", .function 1), ("asyncify_get_state", .function 2),
    ("asyncify_start_unwind", .function 3), ("asyncify_stop_unwind", .function 4),
    ("asyncify_start_rewind", .function 5), ("asyncify_stop_rewind", .function 4)]
  functions :=
    [⟨⟨[], []⟩, [], [.const (.i32 1), .globalSet 0, .const (.i32 3), .call 0]⟩,
      ⟨⟨[], [.i32]⟩, [], [.globalGet 0]⟩,
      ⟨⟨[.i32], []⟩, [], [.const (.i32 1), .globalSet 0]⟩,
      ⟨⟨[], []⟩, [], [.const (.i32 0), .globalSet 0]⟩,
      ⟨⟨[.i32], []⟩, [], [.const (.i32 2), .globalSet 0]⟩]

/-- The controls of that module. -/
def escapeeControls : Controls := ⟨2, 3, 4, 5, 4⟩

/-- The module after it was linked. -/
def linkedEscapee : Instance :=
  match link {} escapee .empty (.over [] ⟨1⟩ ⟨2⟩) with
  | .ok i => i
  | .error _ => ⟨{}, ⟨#[], 0⟩, { host := { wasi := default } }, false⟩

/-- An instance of it: the controls are found, and the bounds of the scratch region are in place. -/
def escaping : Instance :=
  linkedEscapee.armed escapeeControls
    (((Memory.blank 65536).overlay 16 (.ofU32 24)).overlay 20 (.ofU32 1024))

theorem create_escapee : create {} escapee .empty (.over [] ⟨1⟩ ⟨2⟩) = .ok escaping := by
  have hbounds : linkedEscapee.store.host.scratch.writeBounds (Memory.blank 65536) =
      (.ok (), ((Memory.blank 65536).overlay 16 (.ofU32 24)).overlay 20 (.ofU32 1024)) :=
    Suspension.Scratch.writeBounds_of_room (s := {}) (Memory.inBounds_blank (by decide))
      (Memory.inBounds_blank (by decide))
  have hlink : link {} escapee .empty (.over [] ⟨1⟩ ⟨2⟩) = .ok linkedEscapee := by rfl
  exact create_of_link hlink rfl (by rfl) (by rfl) (by rfl) hbounds

/-- Whatever an instrumented instance runs, it stays instrumented at every point of the run, and all
functions that can be imported are guarded but the one by which a guest asks to be ended. -/
theorem guarded_iff_ne_exit {c : Config} {m : Wasm.Module} {imports : ImportSet}
    {streams : Table.StandardStreams} {i : Instance} (h : create c m imports streams = .ok i)
    (hi : i.isInstrumented) :
    ∃ controls ds, Instrumented m imports ds controls i ∧
      (∀ name args, (call name args).Preserves (Instrumented m imports ds controls)) ∧
      start.Preserves (Instrumented m imports ds controls) ∧
      begin.Preserves (Instrumented m imports ds controls) ∧
      (∀ n machine, (Wasm.exec .plain i.environment n machine).Preserves
        (Host.SetUp (some controls) true ·.host)) ∧
      ∀ d ∈ ds, Host.Guarded .whole controls d.function ↔
        d.key ≠ Definitions.wasiKey Wasi.exitName := by
  obtain ⟨controls, ds, hinstrumented⟩ := create_instrumented h hi
  exact ⟨controls, ds, hinstrumented, Instrumented.call .stepping, Instrumented.start .stepping,
    Instrumented.begin .stepping, hinstrumented.exec_preserves (some controls) true,
    Definitions.guarded_iff hinstrumented.definitions controls⟩

/-- For that module, the theorem leaves out the one function that it imports. -/
theorem guarded_iff_ne_exit_escapee :
    ∃ controls ds, Instrumented escapee .empty ds controls escaping ∧
      (∀ name args, (call name args).Preserves (Instrumented escapee .empty ds controls)) ∧
      start.Preserves (Instrumented escapee .empty ds controls) ∧
      begin.Preserves (Instrumented escapee .empty ds controls) ∧
      (∀ n machine, (Wasm.exec .plain escaping.environment n machine).Preserves
        (Host.SetUp (some controls) true ·.host)) ∧
      ∀ d ∈ ds, Host.Guarded .whole controls d.function ↔
        d.key ≠ Definitions.wasiKey Wasi.exitName :=
  guarded_iff_ne_exit create_escapee rfl

/-- A guest that unwinds asks to be ended, and is. -/
theorem exits_unwinding :
    create {} escapee .empty (.over [] ⟨1⟩ ⟨2⟩) = .ok escaping ∧ escaping.isInstrumented ∧
      (start.apply escaping).1 = .ok (.exited 3) ∧
      (start.apply escaping).2.exitCode = some 3 ∧
      ((Host.askState (escaping.invoke) escapeeControls).apply
        (start.apply escaping).2.store).1 = .ok .unwinding :=
  ⟨create_escapee, rfl, by rfl, by decide +kernel, by rfl⟩

end Instance

end GuestHost
