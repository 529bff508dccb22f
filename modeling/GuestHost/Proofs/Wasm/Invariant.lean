import GuestHost.Proofs.Action
import GuestHost.Wasm.Machine

/-!
# What an instruction does about the host

An instruction leaves the host alone, `step_leavesHost`, and so keeps whatever holds of it.
-/

namespace GuestHost

namespace Wasm

variable {σ τ α β : Type}

/-- An action that leaves the host as it is. -/
def LeavesHost (a : Action (Store σ) α) : Prop := ∀ s, (a.apply s).2.host = s.host

namespace LeavesHost

theorem pure (x : α) : LeavesHost (pure x : Action (Store σ) α) := fun _ => rfl

theorem stop (cause : Trap) : LeavesHost (stop cause : Action (Store σ) α) := fun _ => rfl

theorem get : LeavesHost (get : Action (Store σ) (Store σ)) := fun _ => rfl

theorem modify {f : Store σ → Store σ} (h : ∀ s, (f s).host = s.host) :
    LeavesHost (modify f : Action (Store σ) Unit) := h

theorem bind {a : Action (Store σ) α} {f : α → Action (Store σ) β} (ha : LeavesHost a)
    (hf : ∀ x, LeavesHost (f x)) : LeavesHost (a >>= f) := by
  intro s
  rw [Action.apply_bind]
  have hs := ha s
  rcases h : a.apply s with ⟨r, s'⟩
  rw [h] at hs
  cases r with
  | ok x => exact (hf x s').trans hs
  | error e => exact hs

end LeavesHost

/-! ## Instructions -/

theorem leavesHost_loadWord (width : AccessWidth) (address : Nat) :
    LeavesHost (loadWord width address : Action (Store σ) UInt32) := by
  refine .bind .get fun s => ?_
  split
  · split
    · exact .pure _
    · exact .stop _
  · exact .stop _

theorem leavesHost_storeWord (width : AccessWidth) (address : Nat) (value : UInt32) :
    LeavesHost (storeWord width address value : Action (Store σ) Unit) := by
  rintro ⟨_ | m, globals, fuel, host⟩
  · rfl
  · simp only [storeWord, Action.of, Action.apply, ExceptT.run, ExceptT.mk]
    split <;> rfl

theorem leavesHost_growMemory (limit delta : Nat) :
    LeavesHost (growMemory limit delta : Action (Store σ) UInt32) := by
  rintro ⟨_ | m, globals, fuel, host⟩
  · rfl
  · simp only [growMemory, Action.apply_bind, Action.apply_get]
    split <;> rfl

theorem leavesHost_useFuel : LeavesHost (useFuel : Action (Store σ) Unit) :=
  .modify fun _ => rfl

theorem leavesHost_fueled {c : Prop} [Decidable c] {rest : Unit → Action (Store σ) α}
    (h : ∀ u, LeavesHost (rest u)) : LeavesHost (if c then useFuel >>= rest else rest ()) := by
  split
  · exact .bind leavesHost_useFuel h
  · exact h ()

theorem leavesHost_checkFuel : LeavesHost (checkFuel : Action (Store σ) Unit) := by
  refine .bind .get fun s => ?_
  split
  · exact .stop _
  · exact .pure _

theorem leavesHost_execute (env : Environment τ) (a : Activation) (i : Instr) :
    LeavesHost (execute env a i : Action (Store σ) Activation) := by
  unfold execute
  split
  · exact .pure _
  · exact .pure _
  · split
    · exact .pure _
    · exact .stop _
  · exact .bind (leavesHost_loadWord _ _) fun _ => .pure _
  · exact .bind (leavesHost_storeWord _ _ _) fun _ => .pure _
  · refine .bind .get fun s => ?_
    split
    · exact .pure _
    · exact .stop _
  · exact .bind (leavesHost_growMemory _ _) fun _ => .pure _
  · split
    · exact .pure _
    · exact .stop _
  · exact .pure _
  · refine .bind .get fun s => ?_
    split
    · exact .pure _
    · exact .stop _
  · exact .bind (.modify fun _ => rfl) fun _ => .pure _
  · exact .pure _
  · exact .stop _

theorem step_leavesHost (env : Environment τ) (a : Activation) (callers : List Activation) :
    LeavesHost (step env a callers : Action (Store σ) Machine) := by
  unfold step
  split
  · exact .pure _
  · exact .pure _
  · refine leavesHost_fueled fun _ => ?_
    dsimp only
    split
    · exact .stop _
    · exact .pure _
    · exact .pure _
    · exact .bind leavesHost_checkFuel fun _ => .pure _
    · exact .pure _
    · exact .pure _
    · exact .pure _
    · split
      · exact .pure _
      · exact .stop _
    · exact .bind (leavesHost_execute _ _ _) fun _ => .pure _

theorem LeavesHost.preserves {P : σ → Prop} {a : Action (Store σ) α} (h : LeavesHost a) :
    a.Preserves (P ·.host) :=
  fun s hs => (congrArg P (h s)).mpr hs

end Wasm

end GuestHost
