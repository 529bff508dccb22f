import GuestHost.Fault

/-!
# Actions

What a host does around a guest: it changes a state, and it may fail.  A failed action keeps the
changes that it made before it failed.  An action on a part of a state is one on the whole state,
`Action.within`.
-/

namespace GuestHost

/-- A part of a state. -/
structure Part (τ σ : Type) where
  get : τ → σ
  set : σ → τ → τ

/-- The whole of a state. -/
@[reducible]
def Part.whole {σ : Type} : Part σ σ where
  get s := s
  set s _ := s

/-- Changes a state of type `σ` and gives a result, or fails. -/
abbrev Action (σ α : Type) := ExceptT Fault (StateM σ) α

namespace Action

variable {σ τ α : Type}

/-- The action that a function on states describes. -/
def of (f : σ → Except Fault α × σ) : Action σ α := ExceptT.mk f

/-- What an action does to a state. -/
def apply (a : Action σ α) (s : σ) : Except Fault α × σ := ExceptT.run a s

/-- The action on a part of a state. -/
def within (part : Part τ σ) (a : Action σ α) : Action τ α :=
  .of fun t =>
    let (result, s) := a.apply (part.get t)
    (result, part.set s t)

@[simp]
theorem within_whole (a : Action σ α) : a.within .whole = a := rfl

end Action

end GuestHost
