import GuestHost.Action

/-!
# What an action ensures

`a.Ensures P Q` says that the action `a`, started in a state that satisfies `P`, ends with an
outcome and a state that are related by `Q`.  The rules below take a program apart step by step, so
that nothing above them looks into the monad.

`Logged` adds a log to a state.  An action on the state alone runs `under` the log and leaves it as
it is; `record` adds entries, and `logging` adds one about an action.
-/

namespace GuestHost

/-- A state together with a log of what happened around it. -/
structure Logged (σ ε : Type) where
  state : σ
  log : List ε

/-- The state under a log. -/
@[reducible]
def Part.logged {σ ε : Type} : Part (Logged σ ε) σ where
  get := Logged.state
  set s t := { t with state := s }

namespace Action

variable {σ ε α β : Type}

/-! ## Applying an action -/

@[simp]
theorem apply_pure (x : α) (s : σ) : (pure x : Action σ α).apply s = (.ok x, s) := rfl

@[simp]
theorem apply_of (f : σ → Except Fault α × σ) (s : σ) : (of f).apply s = f s := rfl

@[simp]
theorem apply_modify (f : σ → σ) (s : σ) : (modify f : Action σ Unit).apply s = (.ok (), f s) := rfl

@[simp]
theorem apply_get (s : σ) : (get : Action σ σ).apply s = (.ok s, s) := rfl

@[simp]
theorem apply_liftM (r : Except Fault α) (s : σ) : (liftM r : Action σ α).apply s = (r, s) := by
  cases r <;> rfl

theorem apply_bind (a : Action σ α) (f : α → Action σ β) (s : σ) :
    (a >>= f).apply s =
      match a.apply s with
      | (.ok x, s') => (f x).apply s'
      | (.error e, s') => (.error e, s') := by
  change ExceptT.run (ExceptT.bind a f) s = _
  simp only [ExceptT.run, ExceptT.bind, ExceptT.bindCont, ExceptT.mk, apply, bind, StateT.bind]
  rcases a s with ⟨r, s'⟩
  cases r <;> rfl

/-- The action that catches its own failure and gives it as a result. -/
def attempt (a : Action σ α) : Action σ (Except Fault α) := .of fun s =>
  let (r, s) := a.apply s
  (.ok r, s)

/-! ## Rules -/

/-- Started where `P` holds, the action ends with an outcome and a state that are related by `Q`. -/
def Ensures (a : Action σ α) (P : σ → Prop) (Q : Except Fault α → σ → Prop) : Prop :=
  ∀ s, P s → Q (a.apply s).1 (a.apply s).2

/-- Started where `P` holds, the action succeeds with `x` and ends where `Q` holds. -/
def Yields (a : Action σ α) (P : σ → Prop) (x : α) (Q : σ → Prop) : Prop :=
  a.Ensures P fun r s => r = .ok x ∧ Q s

/-- Started where `P` holds, the action fails with `e` and ends where `Q` holds. -/
def Fails (a : Action σ α) (P : σ → Prop) (e : Fault) (Q : σ → Prop) : Prop :=
  a.Ensures P fun r s => r = .error e ∧ Q s

variable {P P' Q' : σ → Prop} {Q R : Except Fault α → σ → Prop} {S : Except Fault β → σ → Prop}

theorem Ensures.mono {a : Action σ α} (h : a.Ensures P Q) (hP : ∀ s, P' s → P s)
    (hQ : ∀ r s, Q r s → R r s) : a.Ensures P' R :=
  fun s hs => hQ _ _ (h s (hP s hs))

theorem Ensures.pure {x : α} (h : ∀ s, P s → Q (.ok x) s) : (pure x : Action σ α).Ensures P Q := h

theorem Ensures.throw {e : Fault} (h : ∀ s, P s → Q (.error e) s) :
    (throw e : Action σ α).Ensures P Q := h

theorem Ensures.liftM {r : Except Fault α} (h : ∀ s, P s → Q r s) :
    (liftM r : Action σ α).Ensures P Q := by
  intro s hs
  rw [apply_liftM]
  exact h s hs

/-- A program that reads the state goes on from the state it read. -/
theorem Ensures.get_bind {f : σ → Action σ β} (h : ∀ s, P s → (f s).Ensures (· = s) S) :
    (get >>= f).Ensures P S := by
  intro s hs
  rw [apply_bind, apply_get]
  exact h s hs s rfl

/-- What is ensured of a program whose first part ends as `Q` says: the second part goes on from
there, and a failure of the first part is the failure of the whole. -/
theorem Ensures.bind {a : Action σ α} {f : α → Action σ β} (ha : a.Ensures P Q)
    (hf : ∀ x, (f x).Ensures (Q (.ok x)) S) (he : ∀ e s, Q (.error e) s → S (.error e) s) :
    (a >>= f).Ensures P S := by
  intro s hs
  have h := ha s hs
  rw [apply_bind]
  rcases ha' : a.apply s with ⟨r, s'⟩
  rw [ha'] at h
  cases r with
  | ok x => exact hf x s' h
  | error e => exact he e s' h

/-- A program that catches the failure of its first part goes on from any outcome of it. -/
theorem Ensures.attempt_bind {a : Action σ α} {f : Except Fault α → Action σ β}
    (ha : a.Ensures P Q) (hf : ∀ r, (f r).Ensures (Q r) S) : (a.attempt >>= f).Ensures P S := by
  intro s hs
  rw [apply_bind]
  exact hf _ _ (ha s hs)

/-- Started where `P` holds, the action goes on as `b` does from a state where `Q` holds. -/
def GoesOn (a : Action σ α) (P : σ → Prop) (b : Action σ α) (Q : σ → Prop) : Prop :=
  ∀ s, P s → ∃ s', Q s' ∧ a.apply s = b.apply s'

theorem GoesOn.of_imp {a : Action σ α} (h : ∀ s, P s → Q' s) : a.GoesOn P a Q' :=
  fun s hs => ⟨s, h s hs, rfl⟩

theorem GoesOn.trans {a b c : Action σ α} {R' : σ → Prop} (hab : a.GoesOn P b Q')
    (hbc : b.GoesOn Q' c R') : a.GoesOn P c R' := by
  intro s hs
  obtain ⟨s', hs', heq⟩ := hab s hs
  obtain ⟨s'', hs'', heq'⟩ := hbc s' hs'
  exact ⟨s'', hs'', heq.trans heq'⟩

theorem GoesOn.get_bind {f : σ → Action σ β} {b : Action σ β}
    (h : ∀ s, P s → (f s).GoesOn (· = s) b Q') : (get >>= f).GoesOn P b Q' := by
  intro s hs
  rw [apply_bind, apply_get]
  exact h s hs s rfl

theorem Yields.goesOn {a : Action σ α} {f : α → Action σ β} {x : α} (ha : a.Yields P x Q') :
    (a >>= f).GoesOn P (f x) Q' := by
  intro s hs
  obtain ⟨hx, hQ⟩ := ha s hs
  refine ⟨_, hQ, ?_⟩
  rw [apply_bind, ← Prod.eta (a.apply s), hx]

theorem GoesOn.bind {a b : Action σ α} {f : α → Action σ β} (h : a.GoesOn P b Q') :
    (a >>= f).GoesOn P (b >>= f) Q' := by
  intro s hs
  obtain ⟨s', hs', heq⟩ := h s hs
  exact ⟨s', hs', by rw [apply_bind, apply_bind, heq]⟩

theorem GoesOn.ensures {a b : Action σ α} (h : a.GoesOn P b Q') (hb : b.Ensures Q' R) :
    a.Ensures P R := by
  intro s hs
  obtain ⟨s', hs', heq⟩ := h s hs
  rw [heq]
  exact hb s' hs'

theorem Yields.pure {x : α} : (Pure.pure x : Action σ α).Yields P x P :=
  fun _ hs => ⟨rfl, hs⟩

theorem Yields.modify {f : σ → σ} (h : ∀ s, P s → Q' (f s)) :
    (modify f : Action σ Unit).Yields P () Q' :=
  fun s hs => ⟨rfl, h s hs⟩

theorem Yields.mono {a : Action σ α} {x : α} (h : a.Yields P x Q') (hP : ∀ s, P' s → P s)
    {R' : σ → Prop} (hQ : ∀ s, Q' s → R' s) : a.Yields P' x R' :=
  fun s hs => ⟨(h s (hP s hs)).1, hQ _ (h s (hP s hs)).2⟩

theorem GoesOn.yields {a b : Action σ α} {x : α} {R' : σ → Prop} (h : a.GoesOn P b Q')
    (hb : b.Yields Q' x R') : a.Yields P x R' :=
  h.ensures hb

/-- A first part that succeeds with one result hands it to the second. -/
theorem Yields.ensures_bind {a : Action σ α} {f : α → Action σ β} {x : α} (ha : a.Yields P x Q')
    (hf : (f x).Ensures Q' S) : (a >>= f).Ensures P S :=
  ha.goesOn.ensures hf

theorem Yields.bind {a : Action σ α} {f : α → Action σ β} {x : α} {y : β} {R' : σ → Prop}
    (ha : a.Yields P x Q') (hf : (f x).Yields Q' y R') : (a >>= f).Yields P y R' :=
  ha.ensures_bind hf

theorem Fails.throw {e : Fault} : (throw e : Action σ α).Fails P e P :=
  fun _ hs => ⟨rfl, hs⟩

/-- What follows a failure is not run. -/
theorem Fails.bind {a : Action σ α} {f : α → Action σ β} {e : Fault} (ha : a.Fails P e Q') :
    (a >>= f).Fails P e Q' := by
  refine Ensures.bind ha (fun x s hs => absurd hs.1 (by simp)) ?_
  rintro e' s ⟨he, hs⟩
  exact ⟨congrArg _ (Except.error.inj he), hs⟩

/-! ## Invariants -/

/-- What holds of the state still holds when the action has ended, in whatever way. -/
def Preserves (a : Action σ α) (P : σ → Prop) : Prop := a.Ensures P fun _ => P

theorem Preserves.pure (x : α) : (pure x : Action σ α).Preserves P := fun _ hs => hs

theorem Preserves.throw (e : Fault) : (throw e : Action σ α).Preserves P := fun _ hs => hs

theorem Preserves.get : (get : Action σ σ).Preserves P := fun _ hs => hs

theorem Preserves.liftM (r : Except Fault α) : (liftM r : Action σ α).Preserves P :=
  Ensures.liftM fun _ hs => hs

theorem Preserves.modify {f : σ → σ} (h : ∀ s, P s → P (f s)) :
    (modify f : Action σ Unit).Preserves P := h

theorem Preserves.bind {a : Action σ α} {f : α → Action σ β} (ha : a.Preserves P)
    (hf : ∀ x, (f x).Preserves P) : (a >>= f).Preserves P :=
  Ensures.bind ha hf fun _ _ hs => hs

/-- A program that reads the state may go on from what holds of it. -/
theorem Preserves.get_bind {f : σ → Action σ β} (h : ∀ s, P s → (f s).Preserves P) :
    (MonadState.get >>= f).Preserves P := by
  intro s hs
  rw [apply_bind, apply_get]
  exact h s hs s hs

theorem apply_discard (a : Action σ α) (s : σ) :
    (discard a).apply s = ((a.apply s).1.map fun _ => (), (a.apply s).2) := by
  change ExceptT.run (ExceptT.map (Function.const α PUnit.unit) a) s = _
  simp only [ExceptT.run, ExceptT.map, ExceptT.mk, apply, bind, StateT.bind]
  rcases a s with ⟨r, s'⟩
  cases r <;> rfl

theorem Preserves.discard {a : Action σ α} (h : a.Preserves P) : (discard a).Preserves P := by
  intro s hs
  rw [apply_discard]
  exact h s hs

/-! ## Logs -/

/-- The action on the state under a log. -/
def under (a : Action σ α) : Action (Logged σ ε) α := a.within .logged

/-- Adds entries to a log. -/
def record (entries : List ε) : Action (Logged σ ε) Unit :=
  modify fun t => { t with log := t.log ++ entries }

/-- Does what an action does on the state, and adds an entry about it: the state that it began in,
its result, and the state that it left. -/
def logging (a : Action σ α) (entry : σ → Except Fault α → σ → ε) : Action (Logged σ ε) α :=
  .of fun t =>
    let (r, s) := a.apply t.state
    (r, ⟨s, t.log ++ [entry t.state r s]⟩)

theorem Yields.under {a : Action σ α} {x : α} (h : a.Yields P x Q') (l : List ε) :
    a.under.Yields (fun t => P t.state ∧ t.log = l) x fun t => Q' t.state ∧ t.log = l :=
  fun t ht => ⟨(h t.state ht.1).1, (h t.state ht.1).2, ht.2⟩

theorem record_yields (entries l : List ε) :
    (record entries).Yields (fun t : Logged σ ε => P t.state ∧ t.log = l) ()
      fun t => P t.state ∧ t.log = l ++ entries :=
  fun _ ht => ⟨rfl, ht.1, congrArg (· ++ entries) ht.2⟩

end Action

end GuestHost
