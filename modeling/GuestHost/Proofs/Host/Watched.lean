import GuestHost.Proofs.Host.Shadow

/-!
# Runs under a watch

Everything that a watch runs is the shadow of what runs without it: the functions of the host,
`callHost_shadows`, the guest, `exec_shadows`, and the exports of an instance, `call_follows`.  So
nothing is changed by a watch, and what it writes down is what happens without one.
-/

namespace GuestHost

open Suspension (Controls Control)

namespace Watch

variable {α : Type} {calm : Prop}

/-! ## What neither ends a guest nor writes anything down -/

theorem Follows.record_bind {σ : Type} {a : Action σ α} {s : σ}
    {T : List Event → Except Fault α → σ → Prop} {entries : List Event}
    {g : Unit → Action (Logged σ Event) α}
    (h : Follows (g ()) a s fun events => T (entries ++ events)) :
    Follows (Action.record entries >>= g) a s T := by
  intro log
  obtain ⟨events, hg, hT⟩ := h (log ++ entries)
  exact ⟨entries ++ events, by rw [Action.apply_bind, ← List.append_assoc]; exact hg, hT⟩

/-- An instruction is no request to be ended. -/
theorem ShadowsWith.instruction_bind {σ : Type} {host : σ → Host} {a : Action σ α} {Q : α → Prop}
    {g : Unit → Action (Logged σ Event) α} (h : ShadowsWith calm host (g ()) a Q) :
    ShadowsWith calm host (Action.record [.instruction] >>= g) a Q := by
  refine fun s hs => .record_bind ((h s hs).mono fun events r s' htells => ⟨?_, htells.2⟩)
  have hanswers : Answers (host s).wasi.args (host s).wasi.env [.instruction] := by simp [Answers]
  have hinstruction : Tells calm (host s) [.instruction] (.ok ()) (host s) :=
    ⟨⟨hs, rfl, rfl, rfl, rfl, hanswers⟩, fun _ _ => rfl, fun _ _ => nofun⟩
  exact hinstruction.trans htells.1

theorem leavesHost_shadows {a : Action Host.Store α} (hleaves : Wasm.LeavesHost a)
    (htraps : Wasm.Traps a) : Shadows calm (·.host) a.under a := by
  refine .under fun s hs => ⟨?_, fun _ _ => trivial⟩
  have hno : NoExit (a.apply s).1 := by
    intro e he
    obtain ⟨cause, rfl⟩ := htraps s e he
    exact Wasm.not_isExit_trap cause
  rw [← hleaves s] at hs
  exact .nothing (.nothing hs (by rw [hleaves])) fun _ => hno

/-- A system call has no part in how the guest ends, and none in the strings that it is handed. -/
theorem run_keepsExit (s : Wasi) (m : Memory) (c : Syscall) :
    (Syscall.run s m c).wasi.returnOnExit = s.returnOnExit ∧
      (Syscall.run s m c).wasi.exitCode = s.exitCode ∧
      (Syscall.run s m c).wasi.args = s.args ∧ (Syscall.run s m c).wasi.env = s.env := by
  have htouches := Syscall.run_touches s m c
  generalize (Syscall.run s m c).wasi = s' at htouches ⊢
  cases htouches <;> exact ⟨rfl, rfl, rfl, rfl⟩

theorem recounts_answerCall (call : Syscall) {s : Host.Store} (hs : Sound calm s.host) :
    Recounts calm s.host
      [.ofCall call s ((Host.answerCall call).apply s).1 ((Host.answerCall call).apply s).2]
      ((Host.answerCall call).apply s).2.host := by
  have hanswers : Answers s.host.wasi.args s.host.wasi.env
      [.ofCall call s ((Host.answerCall call).apply s).1 ((Host.answerCall call).apply s).2] := by
    intro call' before answer after hmem
    cases List.mem_singleton.1 hmem
    exact ⟨s, rfl, rfl, rfl, rfl, rfl⟩
  obtain ⟨_ | memory, globals, fuel, host⟩ := s
  · exact ⟨hs, rfl, rfl, rfl, rfl, hanswers⟩
  · obtain ⟨hreturn, hexit, hargs, henv⟩ := run_keepsExit host.wasi memory call
    exact ⟨hs, hreturn, hexit, hargs, henv, hanswers⟩

theorem answerCall_shadows (call : Syscall) :
    ShadowsWith calm (·.host) ((Host.answerCall call).logging (Event.ofCall call))
      (Host.answerCall call) fun answer => ∀ o, answer = .pending o → calm → NoExit o := by
  intro s hs
  have hrecounts := recounts_answerCall call hs
  refine .logging ⟨⟨hrecounts, fun _ _ => rfl, fun _ code hr => ?_⟩, fun answer hanswer => ?_⟩
  · obtain ⟨_ | memory, globals, fuel, host⟩ := s <;> cases hr
  · obtain ⟨_ | memory, globals, fuel, host⟩ := s <;> cases hanswer
    nofun

/-! ## Functions of the host -/

/-- A function that the host provides does not itself ask for the guest to be ended. -/
def Origin.Calm : Origin → Prop
  | provided i => i.Calm
  | _ => True

/-- A request to be ended is written down, whether it is granted or not. -/
theorem answerExit_shadows (code : Int32) :
    Shadows calm (·.host) (do
        Action.record [.exit code]
        (Host.answerExit code).under : Action Store (List Wasm.Value))
      (Host.answerExit code) := by
  refine fun s hs => .record_bind (.under ⟨?_, fun _ _ => trivial⟩)
  rw [Host.apply_answerExit, List.append_nil]
  have hanswers : Answers s.host.wasi.args s.host.wasi.env [.exit code] := by simp [Answers]
  refine ⟨⟨hs, rfl, rfl, rfl, rfl, hanswers⟩, fun hreturn hno => ?_, fun _ code' hr => ?_⟩
  · rw [if_pos hreturn] at hno
    exact absurd ⟨code, rfl⟩ (hno _ rfl)
  · by_cases hreturn : s.host.wasi.returnOnExit = true
    · rw [if_pos hreturn] at hr
      cases hr
      exact ⟨hreturn, [], rfl, rfl⟩
    · rw [if_neg hreturn] at hr
      cases hr

section Callback

variable {callback' : Wasm.Callback Store} {callback : Host.Callback}
  (hcallback : ∀ function args,
    Shadows calm (·.host) (callback' function args) (callback function args))

include hcallback

theorem intercepted_shadows {call' : Action Store (HostValue (List Wasm.Value))}
    {call : Action Host.Store (HostValue (List Wasm.Value))}
    (hcall : ShadowsWith calm (·.host) call' call fun answer =>
      ∀ o, answer = .pending o → calm → NoExit o) :
    Shadows calm (·.host) (Host.intercepted .logged callback' call')
      (Host.intercepted .whole callback call) := by
  refine .get_bind fun t _ => ?_
  dsimp only
  cases t.state.host.controls with
  | some controls => exact intercept_shadows hcallback controls t.state.host.scratch hcall
  | none =>
    refine hcall.bind fun answer _ => ?_
    cases answer with
    | ready values => exact .pure trivial
    | pending _ => exact .throw (by rintro ⟨code, ⟨⟩⟩)

theorem provided_shadows {i : HostImport} (hi : calm → i.Calm) (args : List Wasm.Value) :
    Shadows calm (·.host) ((i.link manner).run callback' args)
      ((i.link .plain).run callback args) := by
  have hcount (values : List Wasm.Value) :
      Shadows calm (·.host)
        (if values.length = i.type.results.length then pure values
          else Wasm.stop (.resultCount i.key values.length i.type.results.length) :
            Action Store (List Wasm.Value))
        (if values.length = i.type.results.length then pure values
          else Wasm.stop (.resultCount i.key values.length i.type.results.length)) := by
    split
    · exact .pure trivial
    · exact .throw (Wasm.not_isExit_trap _)
  have hanswer : ShadowsWith calm (·.host)
      (pure (i.answer args) : Action Store (HostValue (List Wasm.Value))) (pure (i.answer args))
      fun answer => ∀ o, answer = .pending o → calm → NoExit o :=
    .pure fun o ho hcalm => hi hcalm args o ho
  refine (intercepted_shadows hcallback hanswer).bind fun values => ?_
  cases values with
  | some values =>
    have hpure : Shadows calm (·.host) (pure values : Action Store (List Wasm.Value))
        (pure values) := .pure trivial
    exact hpure.bind hcount
  | none => exact (ShadowsWith.liftM fun _ => noExit_unwindingResults _).bind hcount

theorem run_shadows {origin : Origin} (ho : calm → origin.Calm) (args : List Wasm.Value) :
    Shadows calm (·.host) ((origin.function manner).run callback' args)
      ((origin.function .plain).run callback args) := by
  cases origin with
  | wasi f =>
    dsimp only [Origin.function, WasiFunction.link]
    cases f.call args with
    | none => exact .throw (Wasm.not_isExit_trap _)
    | some call =>
      refine .get_bind fun t _ => ?_
      split
      · exact .throw (by rintro ⟨code, ⟨⟩⟩)
      · exact (intercepted_shadows hcallback (answerCall_shadows call)).bind fun _ => .pure trivial
  | exit =>
    dsimp only [Origin.function, exitFunction]
    rcases args with _ | ⟨value, _ | ⟨_, _⟩⟩
    · exact .throw (Wasm.not_isExit_trap _)
    · cases value with
      | i32 code => exact answerExit_shadows _
      | _ => exact .throw (Wasm.not_isExit_trap _)
    · cases value <;> exact .throw (Wasm.not_isExit_trap _)
  | provided i => exact provided_shadows hcallback ho args
  | unknown key type => exact .throw (Wasm.not_isExit_trap _)

theorem callHost_shadows {origin : Origin} (ho : calm → origin.Calm) (args : List Wasm.Value) :
    Shadows calm (·.host) ((origin.function manner).call callback' args)
      ((origin.function .plain).call callback args) := by
  refine (run_shadows hcallback ho args).bind fun results => ?_
  have htype : (origin.function manner).type = (origin.function .plain).type := by
    cases origin <;> rfl
  rw [htype]
  cases Wasm.mismatch? (origin.function .plain).type.results results with
  | none => exact .pure trivial
  | some mismatch => exact .throw (Wasm.not_isExit_trap _)

end Callback

/-! ## Running a guest -/

variable {w : Watch}

/-- No function of the host would end the guest, unless the host is not calm. -/
def Trusts (w : Watch) (calm : Prop) : Prop :=
  ∀ origin, Callee.host origin ∈ w.functions → calm → origin.Calm

theorem getElem?_environment {τ : Type} (w : Watch) (k : Host.Manner τ) (function : Nat) :
    (w.environment k).functions[function]? = w.functions[function]?.map (Callee.callee k) :=
  Array.getElem?_map

/-- A watch does not change what a step does. -/
theorem step_environment (w : Watch) (a : Wasm.Activation) (callers : List Wasm.Activation) :
    (Wasm.step (w.environment manner) a callers : Action Host.Store Wasm.Machine) =
      Wasm.step (w.environment .plain) a callers := by
  have htype : (w.environment manner).type? = (w.environment .plain).type? := by
    funext function
    simp only [Wasm.Environment.type?, getElem?_environment, Option.map_map]
    refine congrArg (w.functions[function]?.map ·) (funext fun callee => ?_)
    rcases callee with (_ | _ | _ | _) | _ <;> rfl
  exact Wasm.step_congr htype rfl a callers

/-- A watched run of the guest is the run that is not watched.  The induction is on the number of
steps, which also bounds the guest when it is called back. -/
theorem exec_shadows (hw : w.Trusts calm) (n : Nat) (machine : Wasm.Machine) :
    Shadows calm (·.host) (w.exec n machine)
      (Wasm.exec .plain (w.environment .plain) n machine) := by
  induction n generalizing machine with
  | zero => cases machine <;> exact .throw (Wasm.not_isExit_trap _)
  | succ n ih =>
    cases machine with
    | running a callers =>
      rw [exec, Wasm.exec, Wasm.exec_plain_running, step_environment]
      have hstep : Shadows calm (·.host)
          (Wasm.step (w.environment .plain) a callers : Action Host.Store Wasm.Machine).under
          (Wasm.step (w.environment .plain) a callers) :=
        leavesHost_shadows (Wasm.step_leavesHost _ a callers) (Wasm.step_traps _ a callers)
      exact .instruction_bind (hstep.bind ih)
    | calling function args callers =>
      rw [exec, Wasm.exec, Wasm.exec, getElem?_environment, getElem?_environment]
      cases hcallee : w.functions[function]? with
      | none => exact .throw (Wasm.not_isExit_trap _)
      | some callee =>
        cases callee with
        | host origin =>
          have ho := hw origin (Array.mem_of_getElem? hcallee)
          have hcall :=
            callHost_shadows (fun function args => ih (.calling function args [])) ho args
          exact hcall.bind fun results => ih (.returning results callers)
        | guest f =>
          have hcheck : Shadows calm (·.host) Wasm.checkFuel.under Wasm.checkFuel :=
            leavesHost_shadows Wasm.leavesHost_checkFuel Wasm.traps_checkFuel
          have huse : Shadows calm (·.host) Wasm.useFuel.under Wasm.useFuel :=
            leavesHost_shadows Wasm.leavesHost_useFuel (.modify _)
          exact hcheck.bind fun _ => huse.bind fun _ => ih (.running (f.activate args) callers)
    | returning results callers =>
      cases callers with
      | nil => exact .pure trivial
      | cons a callers => exact ih _

/-! ## Running exports -/

/-- The watch is on what an instance runs. -/
structure On (w : Watch) (calm : Prop) (i : Instance) : Prop where
  environment : w.environment .plain = i.environment
  trusts : w.Trusts calm
  sound : Sound calm i.store.host

/-- What becomes of an instance when something is done with its guest, and what was written down. -/
structure Leaves (calm : Prop) (i : Instance) (events : List Event) (r : Except Fault α)
    (i' : Instance) : Prop where
  frame : i' = { i with store := i'.store }
  tells : Tells calm i.store.host events r i'.store.host

variable {i : Instance}

theorem invoke_shadows (hi : w.On calm i) (function : Nat) (args : List Wasm.Value) :
    Shadows calm (·.host) (w.invoke function args) (i.invoke function args) := by
  rw [Instance.invoke, ← hi.environment]
  exact exec_shadows hi.trusts Wasm.stepLimit (.calling function args [])

theorem within_follows {b : Action Store α} {a : Action Host.Store α}
    (hab : Shadows calm (·.host) b a) (hi : Sound calm i.store.host) :
    Follows (b.within part) (a.within Instance.part) i (Leaves calm i) := by
  intro log
  obtain ⟨events, hb, htells, -⟩ := hab i.store hi log
  refine ⟨events, ?_, rfl, htells⟩
  simp only [Action.within, Action.apply_of, hb]

theorem callOnce_shadows (hi : w.On calm i) (function : Nat) (args : List Wasm.Value) :
    Shadows calm (·.host) (i.callOnce w.invoke function args)
      (i.callOnce i.invoke function args) := by
  unfold Instance.callOnce
  cases i.code.functionType? function with
  | none => exact .throw (Wasm.not_isExit_trap _)
  | some type =>
    have hcheck : Shadows calm (·.host)
        (liftM (Instance.checkArguments type args) : Action Store Unit)
        (liftM (Instance.checkArguments type args)) :=
      .liftM fun _ => Instance.noExit_checkArguments type args
    exact hcheck.bind fun _ => invoke_shadows hi function args

theorem call_follows (hi : w.On calm i) (name : String) (args : List Wasm.Value) :
    Follows (w.exports.call name args) (Instance.call name args) i (Leaves calm i) := by
  refine .get_bind fun t ht => ?_
  subst ht
  dsimp only [Instance.Manner.plain]
  cases t.state.code.function? name with
  | none =>
    exact .throw ⟨rfl, .nothing (.nothing hi.sound rfl) fun _ => by rintro _ ⟨⟩ ⟨code, ⟨⟩⟩⟩
  | some function =>
    have honce := callOnce_shadows hi function args
    dsimp only
    cases t.state.store.host.controls with
    | none => exact within_follows honce hi.sound
    | some controls =>
      dsimp only
      split
      · exact within_follows honce hi.sound
      · exact within_follows (drive_shadows (invoke_shadows hi) controls _ honce _) hi.sound

/-! ## One step of a run -/

section Step

variable {n : Nat} {s s' : Host.Store} {log log' : List Event} {callers : List Wasm.Activation}

theorem exec_running {a : Wasm.Activation} {machine : Wasm.Machine}
    (h : (Wasm.step (w.environment .plain) a callers).apply s = (.ok machine, s')) :
    (w.exec (n + 1) (.running a callers)).apply ⟨s, log⟩ =
      (w.exec n machine).apply ⟨s', log ++ [.instruction]⟩ := by
  rw [exec, Wasm.exec, step_environment, Action.apply_bind]
  simp only [Action.record, Action.apply_modify, Action.apply_bind, Action.within, Action.apply_of,
    h]

theorem exec_calling_host {function : Nat} {origin : Origin} {args results : List Wasm.Value}
    (hf : w.functions[function]? = some (.host origin))
    (h : ((origin.function manner).call (fun function args => w.exec n (.calling function args []))
      args).apply ⟨s, log⟩ = (.ok results, ⟨s', log'⟩)) :
    (w.exec (n + 1) (.calling function args callers)).apply ⟨s, log⟩ =
      (w.exec n (.returning results callers)).apply ⟨s', log'⟩ := by
  rw [exec, Wasm.exec, getElem?_environment, hf]
  simp only [Option.map_some, Callee.callee, Action.apply_bind]
  rw [exec] at h
  rw [h]

theorem exec_calling_guest {function : Nat} {f : Wasm.Function} {args : List Wasm.Value}
    (hf : w.functions[function]? = some (.guest f)) (hs : s.fuel = none) :
    (w.exec (n + 1) (.calling function args callers)).apply ⟨s, log⟩ =
      (w.exec n (.running (f.activate args) callers)).apply ⟨s, log⟩ := by
  obtain ⟨memory, globals, fuel, host⟩ := s
  dsimp only at hs
  subst hs
  rw [exec, Wasm.exec, getElem?_environment, hf]
  rfl

/-- A guest that is not instrumented is given the answer to its system call, and the call is written
down. -/
theorem apply_call_link {f : WasiFunction} {call : Syscall} {args : List Wasm.Value}
    {callback : Wasm.Callback Store} {memory : Memory} {r : Syscall.Result}
    (hcall : f.call args = some call) (hmemory : s.memory = some memory)
    (hshares : s.host.sharesMemory = true) (hcontrols : s.host.controls = none)
    (hr : call.run s.host.wasi memory = r) :
    ((f.link manner).call callback args).apply ⟨s, log⟩ =
      (.ok [.i32 (.ofNat r.errno.code)],
        ⟨{ s with memory := some r.memory, host := { s.host with wasi := r.wasi } },
          log ++ [.called call (some memory) (.ok (.ready [.i32 (.ofNat r.errno.code)]))
            (some r.memory)]⟩) := by
  obtain ⟨_, globals, fuel, host⟩ := s
  dsimp only at hmemory hshares hcontrols hr
  subst hmemory hr
  simp only [Wasm.HostFunction.call, WasiFunction.link, hcall, Action.apply_bind, Action.apply_get,
    hshares, Bool.not_true, Bool.false_eq_true, if_false, Host.intercepted, hcontrols,
    Action.logging, Host.answerCall, Action.apply_of, Action.apply_pure]
  rfl

end Step

end Watch

end GuestHost
