import GuestHost.Proofs.Wasm.Invariant

/-!
# Guests that ask to be ended

A guest that asks to be ended stops with `Fault.exit`.  The machine itself only stops with traps,
`step_traps`, so such a fault comes from a function of the host.  `a.EndsIn I D` says that `a` keeps
`I`, and that `D` holds where it stops with that fault.  What all functions of the host end in is
what any run of the guest ends in, `exec_endsIn`.
-/

namespace GuestHost

/-- The fault with which a guest stops that asks to be ended. -/
def Fault.IsExit (e : Fault) : Prop := ∃ code, e = .exit code

/-- An outcome that is not such a fault. -/
def NoExit {α : Type} (r : Except Fault α) : Prop := ∀ e, r = .error e → ¬ e.IsExit

theorem NoExit.ok {α : Type} (x : α) : NoExit (.ok x) := nofun

namespace Action

variable {σ α β : Type} {I D : σ → Prop}

/-- The action keeps `I`, its results satisfy `Q`, and `D` holds where it stops because the guest
asks to be ended. -/
def EndsWith (a : Action σ α) (I D : σ → Prop) (Q : α → Prop) : Prop :=
  a.Ensures I fun r s =>
    I s ∧ (∀ e, r = .error e → e.IsExit → D s) ∧ ∀ x, r = .ok x → Q x

/-- The same of an action with any results. -/
def EndsIn (a : Action σ α) (I D : σ → Prop) : Prop := a.EndsWith I D fun _ => True

namespace EndsWith

variable {Q : α → Prop} {R : β → Prop}

theorem pure {x : α} (hx : Q x) : (pure x : Action σ α).EndsWith I D Q := by
  refine Ensures.pure fun s hs => ⟨hs, nofun, ?_⟩
  rintro _ ⟨⟩
  exact hx

theorem throw {e : Fault} (he : ¬ e.IsExit) : (throw e : Action σ α).EndsWith I D Q := by
  refine Ensures.throw fun s hs => ⟨hs, ?_, nofun⟩
  rintro _ ⟨⟩ hexit
  exact absurd hexit he

theorem bind {a : Action σ α} {f : α → Action σ β} (ha : a.EndsWith I D Q)
    (hf : ∀ x, Q x → (f x).EndsWith I D R) : (a >>= f).EndsWith I D R := by
  refine Ensures.bind ha (fun x s hs => hf x (hs.2.2 x rfl) s hs.1) ?_
  rintro e s ⟨hs, he, -⟩
  exact ⟨hs, fun e' he' => he e' (congrArg _ (Except.error.inj he')), nofun⟩

/-- A program that reads the state may go on from what holds of it. -/
theorem get_bind {f : σ → Action σ α} (h : ∀ s, I s → (f s).EndsWith I D Q) :
    (MonadState.get >>= f).EndsWith I D Q :=
  Ensures.get_bind fun s hs t ht => h s hs t (ht ▸ hs)

end EndsWith

namespace EndsIn

theorem of_ensures {a : Action σ α}
    (h : a.Ensures I fun r s => I s ∧ ∀ e, r = .error e → e.IsExit → D s) : a.EndsIn I D :=
  fun s hs => ⟨(h s hs).1, (h s hs).2, fun _ _ => trivial⟩

theorem pure (x : α) : (pure x : Action σ α).EndsIn I D := EndsWith.pure trivial

theorem throw {e : Fault} (he : ¬ e.IsExit) : (throw e : Action σ α).EndsIn I D :=
  EndsWith.throw he

theorem liftM {r : Except Fault α} (hr : NoExit r) : (liftM r : Action σ α).EndsIn I D :=
  of_ensures (Ensures.liftM fun _ hs => ⟨hs, fun e he hexit => absurd hexit (hr e he)⟩)

theorem get : (get : Action σ σ).EndsIn I D := by
  refine of_ensures fun s hs => ?_
  rw [apply_get]
  exact ⟨hs, nofun⟩

theorem modify {f : σ → σ} (h : ∀ s, I s → I (f s)) : (modify f : Action σ Unit).EndsIn I D := by
  refine of_ensures fun s hs => ?_
  rw [apply_modify]
  exact ⟨h s hs, nofun⟩

theorem bind {a : Action σ α} {f : α → Action σ β} (ha : a.EndsIn I D)
    (hf : ∀ x, (f x).EndsIn I D) : (a >>= f).EndsIn I D :=
  EndsWith.bind ha fun x _ => hf x

theorem discard {a : Action σ α} (h : a.EndsIn I D) : (discard a).EndsIn I D := by
  refine of_ensures fun s hs => ?_
  obtain ⟨hI, hD, -⟩ := h s hs
  rw [apply_discard]
  refine ⟨hI, fun e he => ?_⟩
  rcases hr : (a.apply s).1 with e' | x
  · rw [hr] at he
    cases he
    exact hD e hr
  · rw [hr] at he
    cases he

end EndsIn

end Action

namespace Wasm

variable {σ τ α β : Type}

/-! ## Instructions -/

/-- An action that only stops with a trap. -/
def Traps (a : Action (Store σ) α) : Prop :=
  ∀ s e, (a.apply s).1 = .error e → ∃ cause, e = .trap cause

namespace Traps

theorem of_ok {a : Action (Store σ) α} (h : ∀ s, ∃ x s', a.apply s = (.ok x, s')) : Traps a := by
  intro s e he
  obtain ⟨x, s', hs⟩ := h s
  rw [hs] at he
  cases he

theorem pure (x : α) : Traps (pure x : Action (Store σ) α) := of_ok fun s => ⟨x, s, rfl⟩

theorem stop (cause : Trap) : Traps (stop cause : Action (Store σ) α) :=
  fun _ _ he => ⟨cause, (Except.error.inj he).symm⟩

theorem get : Traps (get : Action (Store σ) (Store σ)) := of_ok fun s => ⟨s, s, rfl⟩

theorem modify (f : Store σ → Store σ) : Traps (modify f : Action (Store σ) Unit) :=
  of_ok fun s => ⟨(), f s, rfl⟩

theorem bind {a : Action (Store σ) α} {f : α → Action (Store σ) β} (ha : Traps a)
    (hf : ∀ x, Traps (f x)) : Traps (a >>= f) := by
  intro s e he
  rw [Action.apply_bind] at he
  rcases h : a.apply s with ⟨e' | x, s'⟩
  · rw [h] at he
    exact ha s e (by rw [h, Except.error.inj he])
  · rw [h] at he
    exact hf x s' e he

end Traps

theorem traps_loadWord (width : AccessWidth) (address : Nat) :
    Traps (loadWord width address : Action (Store σ) UInt32) := by
  refine .bind .get fun s => ?_
  split
  · split
    · exact .pure _
    · exact .stop _
  · exact .stop _

theorem traps_storeWord (width : AccessWidth) (address : Nat) (value : UInt32) :
    Traps (storeWord width address value : Action (Store σ) Unit) := by
  rintro ⟨_ | m, globals, fuel, host⟩ e he
  · exact ⟨_, (Except.error.inj he).symm⟩
  · simp only [storeWord, Action.apply_of] at he
    split at he
    · cases he
    · exact ⟨_, (Except.error.inj he).symm⟩

theorem traps_growMemory (limit delta : Nat) :
    Traps (growMemory limit delta : Action (Store σ) UInt32) := by
  refine .bind .get fun s => ?_
  split
  · split
    · exact .bind (.modify _) fun _ => .pure _
    · exact .pure _
  · exact .stop _

theorem traps_checkFuel : Traps (checkFuel : Action (Store σ) Unit) := by
  refine .bind .get fun s => ?_
  split
  · exact .stop _
  · exact .pure _

theorem traps_execute (env : Environment τ) (a : Activation) (i : Instr) :
    Traps (execute env a i : Action (Store σ) Activation) := by
  unfold execute
  split
  · exact .pure _
  · exact .pure _
  · split
    · exact .pure _
    · exact .stop _
  · exact .bind (traps_loadWord _ _) fun _ => .pure _
  · exact .bind (traps_storeWord _ _ _) fun _ => .pure _
  · refine .bind .get fun s => ?_
    split
    · exact .pure _
    · exact .stop _
  · exact .bind (traps_growMemory _ _) fun _ => .pure _
  · split
    · exact .pure _
    · exact .stop _
  · exact .pure _
  · refine .bind .get fun s => ?_
    split
    · exact .pure _
    · exact .stop _
  · exact .bind (.modify _) fun _ => .pure _
  · exact .pure _
  · exact .stop _

theorem traps_fueled {c : Prop} [Decidable c] {rest : Unit → Action (Store σ) α}
    (h : ∀ u, Traps (rest u)) : Traps (if c then useFuel >>= rest else rest ()) := by
  split
  · exact .bind (.modify _) h
  · exact h ()

theorem step_traps (env : Environment τ) (a : Activation) (callers : List Activation) :
    Traps (step env a callers : Action (Store σ) Machine) := by
  unfold step
  split
  · exact .pure _
  · exact .pure _
  · refine traps_fueled fun _ => ?_
    dsimp only
    split
    · exact .stop _
    · exact .pure _
    · exact .pure _
    · exact .bind traps_checkFuel fun _ => .pure _
    · exact .pure _
    · exact .pure _
    · exact .pure _
    · split
      · exact .pure _
      · exact .stop _
    · exact .bind (traps_execute _ _ _) fun _ => .pure _

/-! ## Runs -/

variable {I D : σ → Prop}

theorem not_isExit_trap (cause : Trap) : ¬ (Fault.trap cause).IsExit := by
  rintro ⟨code, ⟨⟩⟩

theorem endsIn_stop (cause : Trap) :
    (stop cause : Action (Store σ) α).EndsIn (I ·.host) (D ·.host) :=
  .throw (not_isExit_trap cause)

/-- What neither changes the host nor asks to be ended. -/
theorem LeavesHost.endsIn {a : Action (Store σ) α} (h : LeavesHost a) (htraps : Traps a) :
    a.EndsIn (I ·.host) (D ·.host) := by
  refine .of_ensures fun s hs => ⟨h.preserves s hs, fun e he hexit => ?_⟩
  obtain ⟨cause, rfl⟩ := htraps s e he
  exact absurd hexit (not_isExit_trap cause)

/-- A function of the host ends in what the guest ends in when it is called back. -/
def HostFunction.EndsIn (f : HostFunction (Store σ)) (I D : σ → Prop) : Prop :=
  ∀ callback : Callback (Store σ),
    (∀ function args, (callback function args).EndsIn (I ·.host) (D ·.host)) →
      ∀ args, (f.run callback args).EndsIn (I ·.host) (D ·.host)

theorem HostFunction.EndsIn.call {f : HostFunction (Store σ)} {callback : Callback (Store σ)}
    (hf : f.EndsIn I D)
    (hcallback : ∀ function args, (callback function args).EndsIn (I ·.host) (D ·.host))
    (args : List Value) : (f.call callback args).EndsIn (I ·.host) (D ·.host) := by
  refine .bind (hf callback hcallback args) fun results => ?_
  split
  · exact .pure _
  · exact endsIn_stop _

/-- What all functions of the host end in is what a run of the guest ends in.  The induction is on
the number of steps, which also bounds the guest when it is called back. -/
theorem exec_endsIn {env : Environment (Store σ)}
    (h : ∀ f, Callee.host f ∈ env.functions → f.EndsIn I D) (n : Nat) (machine : Machine) :
    (exec .plain env n machine).EndsIn (I ·.host) (D ·.host) := by
  induction n generalizing machine with
  | zero => cases machine <;> exact endsIn_stop _
  | succ n ih =>
    cases machine with
    | running a callers =>
      rw [exec_plain_running]
      exact .bind ((step_leavesHost env a callers).endsIn (step_traps env a callers)) ih
    | calling function args callers =>
      rw [exec]
      split
      · exact endsIn_stop _
      · next f hf =>
        have hends := h f (Array.mem_of_getElem? hf)
        have hcall := hends.call (fun function args => ih (.calling function args [])) args
        exact .bind hcall fun results => ih (.returning results callers)
      · next f hf =>
        refine .bind (leavesHost_checkFuel.endsIn traps_checkFuel) fun _ => ?_
        refine .bind (leavesHost_useFuel.endsIn (.modify _)) fun _ => ?_
        exact ih (.running (f.activate args) callers)
    | returning results callers =>
      cases callers with
      | nil => exact .pure results
      | cons a callers => exact ih _

/-! ## One step of a run -/

section Exec

variable {env : Environment (Store σ)} {n : Nat} {s s' : Store σ} {callers : List Activation}

theorem exec_running {a : Activation} {machine : Machine}
    (h : (step env a callers).apply s = (.ok machine, s')) :
    (exec .plain env (n + 1) (.running a callers)).apply s =
      (exec .plain env n machine).apply s' := by
  rw [exec_plain_running, Action.apply_bind, h]

theorem exec_calling_host {function : Nat} {f : HostFunction (Store σ)} {args results : List Value}
    (hf : env.functions[function]? = some (.host f))
    (h : (f.call (fun function args => exec .plain env n (.calling function args []))
      args).apply s = (.ok results, s')) :
    (exec .plain env (n + 1) (.calling function args callers)).apply s =
      (exec .plain env n (.returning results callers)).apply s' := by
  rw [exec]
  simp only [hf, Action.apply_bind, h]

theorem exec_calling_guest {function : Nat} {f : Function} {args : List Value}
    (hf : env.functions[function]? = some (.guest f)) (hs : s.fuel = none) :
    (exec .plain env (n + 1) (.calling function args callers)).apply s =
      (exec .plain env n (.running (f.activate args) callers)).apply s := by
  obtain ⟨memory, globals, fuel, host⟩ := s
  dsimp only at hs
  subst hs
  rw [exec, hf]
  rfl

end Exec

end Wasm

end GuestHost
