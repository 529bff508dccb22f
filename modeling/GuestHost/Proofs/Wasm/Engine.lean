import GuestHost.Proofs.Wasm.Exit

/-!
# Engines

What runs guests is an `Engine`.  Results about runs ask one thing of it: a guest gets at its host,
and asks to be ended, through the functions of the host and in no other way.  So what all of these
end in is what any call of the guest ends in, and what all of them keep is kept by any call,
`Engine.preserves`.  The machine is an engine, `Engine.stepping`.
-/

namespace GuestHost

theorem Action.EndsIn.preserves {σ α : Type} {I D : σ → Prop} {a : Action σ α}
    (h : a.EndsIn I D) : a.Preserves I :=
  fun s hs => (h s hs).1

namespace Wasm

variable {σ : Type} {P : σ → Prop}

/-- A function of the host keeps a property of the host if the guest does when it is called back. -/
def HostFunction.Keeps (f : HostFunction (Store σ)) (P : σ → Prop) : Prop :=
  ∀ callback : Callback (Store σ),
    (∀ function args, (callback function args).Preserves (P ·.host)) →
      ∀ args, (f.run callback args).Preserves (P ·.host)

/-- To keep a property is to end in it, whatever is asked for. -/
theorem HostFunction.Keeps.endsIn {f : HostFunction (Store σ)} (h : f.Keeps P) :
    f.EndsIn P fun _ => True := by
  intro callback hcallback args
  have hrun := h callback (fun function args => (hcallback function args).preserves) args
  exact .of_ensures fun s hs => ⟨hrun s hs, fun _ _ _ => trivial⟩

/-- What all functions of the host keep is kept by a run of the guest, at whatever point it is
stopped. -/
theorem exec_preserves {env : Environment (Store σ)}
    (h : ∀ f, Callee.host f ∈ env.functions → f.Keeps P) (n : Nat) (machine : Machine) :
    (exec .plain env n machine).Preserves (P ·.host) :=
  (exec_endsIn (fun f hf => (h f hf).endsIn) n machine).preserves

/-- What runs guests, for hosts with a state of type `σ`. -/
structure Engine (σ : Type) where
  /-- Calls a function of a guest by its number. -/
  invoke : Environment (Store σ) → Callback (Store σ)
  /-- A call ends in what all functions of the host end in. -/
  endsIn : ∀ {env : Environment (Store σ)} {I D : σ → Prop},
    (∀ f, Callee.host f ∈ env.functions → f.EndsIn I D) →
      ∀ function args, (invoke env function args).EndsIn (I ·.host) (D ·.host)

namespace Engine

/-- The machine, which goes on instruction by instruction. -/
@[reducible]
def stepping : Engine σ where
  invoke := Wasm.invoke .plain
  endsIn h function args := exec_endsIn h stepLimit (.calling function args [])

variable (E : Engine σ)

theorem preserves {env : Environment (Store σ)}
    (h : ∀ f, Callee.host f ∈ env.functions → f.Keeps P) (function : Nat) (args : List Value) :
    (E.invoke env function args).Preserves (P ·.host) :=
  (E.endsIn (fun f hf => (h f hf).endsIn) function args).preserves

end Engine

end Wasm

end GuestHost
