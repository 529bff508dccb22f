import GuestHost.Proofs.Action
import GuestHost.Suspension.Protocol

/-!
# Guests with faithful controls

A guest is faithful when it reports a variable that each control sets as it should, and no control
fails.  `Faithful` is a protocol of such a guest.  What counts of a state is its `View`: what the
guest is doing, the stash, and whatever else guest and host keep.  A control may also do something
of its own to that rest, such as writing a log, which `effect` describes.

The lemmas say what each part of the protocol does to a view, one for each way in which an import or
an export can go.
-/

namespace GuestHost

namespace Suspension

/-- What a host tells a guest through its controls. -/
inductive Command where
  | startUnwind (address : UInt32)
  | stopUnwind
  | startRewind (address : UInt32)
  | stopRewind
  deriving DecidableEq, Repr

/-- What a guest does once it was told so. -/
def Command.phase : Command → State
  | startUnwind _ => .unwinding
  | startRewind _ => .rewinding
  | stopUnwind | stopRewind => .normal

/-- What counts of the state of a guest and its host. -/
structure View (V ρ : Type) where
  /-- What the guest is doing. -/
  phase : State
  /-- The answer on its way to the guest. -/
  stash : Stash V
  /-- What else the guest and its host keep. -/
  own : ρ

/-- The view after a command. -/
def View.told {V ρ : Type} (effect : Command → ρ → ρ) (c : Command) (v : View V ρ) : View V ρ :=
  { v with phase := c.phase, own := effect c v.own }

/-- A protocol with faithful controls. -/
structure Faithful (σ V : Type) {ρ : Type} (effect : Command → ρ → ρ) extends Protocol σ V where
  view : σ → View V ρ
  /-- The state after guest and host changed what else they keep. -/
  setOwn : ρ → σ → σ
  view_stash : ∀ s, (view s).stash = stash s
  view_setStash : ∀ x s, view (setStash x s) = { view s with stash := x }
  view_setOwn : ∀ x s, view (setOwn x s) = { view s with own := x }
  state_yields : ∀ v, state.Yields (view · = v) v.phase (view · = v)
  startUnwind_yields : ∀ ptr v,
    (startUnwind ptr).Yields (view · = v) () (view · = v.told effect (.startUnwind ptr))
  stopUnwind_yields : ∀ v,
    stopUnwind.Yields (view · = v) () (view · = v.told effect .stopUnwind)
  startRewind_yields : ∀ ptr v,
    (startRewind ptr).Yields (view · = v) () (view · = v.told effect (.startRewind ptr))
  stopRewind_yields : ∀ v,
    stopRewind.Yields (view · = v) () (view · = v.told effect .stopRewind)

namespace Faithful

variable {σ V ρ R : Type} {effect : Command → ρ → ρ}

/-- The guest that is nothing but its view. -/
def plain (dataPtr : UInt32) (effect : Command → ρ → ρ) : Faithful (View V ρ) V effect where
  state := .of fun v => (.ok v.phase, v)
  startUnwind ptr := modify (View.told effect (.startUnwind ptr))
  stopUnwind := modify (View.told effect .stopUnwind)
  startRewind ptr := modify (View.told effect (.startRewind ptr))
  stopRewind := modify (View.told effect .stopRewind)
  dataPtr := dataPtr
  stash := View.stash
  setStash x v := { v with stash := x }
  view := id
  setOwn x v := { v with own := x }
  view_stash _ := rfl
  view_setStash _ _ := rfl
  view_setOwn _ _ := rfl
  state_yields := by rintro _ s rfl; exact ⟨rfl, rfl⟩
  startUnwind_yields := by rintro _ _ s rfl; exact ⟨rfl, rfl⟩
  stopUnwind_yields := by rintro _ s rfl; exact ⟨rfl, rfl⟩
  startRewind_yields := by rintro _ _ s rfl; exact ⟨rfl, rfl⟩
  stopRewind_yields := by rintro _ s rfl; exact ⟨rfl, rfl⟩

variable (h : Faithful σ V effect)

/-- The states with a view. -/
def At (v : View V ρ) (s : σ) : Prop := h.view s = v

/-- Started in a state with the view `v`, the action ends with an outcome and a view that are
related by `Q`. -/
def Sees {α : Type} (a : Action σ α) (v : View V ρ) (Q : Except Fault α → View V ρ → Prop) : Prop :=
  a.Ensures (h.At v) fun r s => Q r (h.view s)

variable {v : View V ρ}

theorem At.view_eq {h : Faithful σ V effect} {s : σ} (hs : h.At v s) : h.view s = v := hs

theorem sees_of_yields {α : Type} {a : Action σ α} {x : α} {w : View V ρ}
    {Q : Except Fault α → View V ρ → Prop} (ha : a.Yields (h.At v) x (h.At w))
    (hQ : Q (.ok x) w) : h.Sees a v Q := by
  intro s hs
  obtain ⟨hx, hw⟩ := ha s hs
  rw [hx, hw.view_eq]
  exact hQ

theorem sees_of_fails {α : Type} {a : Action σ α} {e : Fault} {w : View V ρ}
    {Q : Except Fault α → View V ρ → Prop} (ha : a.Fails (h.At v) e (h.At w))
    (hQ : Q (.error e) w) : h.Sees a v Q := by
  intro s hs
  obtain ⟨he, hw⟩ := ha s hs
  rw [he, hw.view_eq]
  exact hQ

/-- What is seen from every view that satisfies `P` is ensured of the states with such views. -/
theorem ensures_of_sees {α : Type} {a : Action σ α} {P : View V ρ → Prop}
    {Q : Except Fault α → View V ρ → Prop} (ha : ∀ v, P v → h.Sees a v Q) :
    a.Ensures (fun s => P (h.view s)) fun r s => Q r (h.view s) :=
  fun s hs => ha _ hs s rfl

/-! ## The parts of the protocol -/

theorem expect_yields (v : View V ρ) : (h.expect v.phase).Yields (h.At v) () (h.At v) := by
  unfold Protocol.expect
  refine (h.state_yields v).bind ?_
  simp only [ne_eq, not_true_eq_false, if_false]
  exact .pure

theorem expect_normal (hphase : v.phase = .normal) :
    (h.expect .normal).Yields (h.At v) () (h.At v) :=
  hphase ▸ h.expect_yields v

theorem expect_fails {expected : State} (hv : v.phase ≠ expected) :
    (h.expect expected).Fails (h.At v) (.suspensionState expected v.phase) (h.At v) := by
  unfold Protocol.expect
  refine (h.state_yields v).ensures_bind ?_
  simp only [ne_eq, hv, not_false_eq_true, if_true]
  exact Action.Fails.throw

theorem at_setStash {s : σ} (hs : h.At v s) (x : Stash V) :
    h.At { v with stash := x } (h.setStash x s) := by
  rw [At, h.view_setStash, hs]

theorem stash_eq {s : σ} (hs : h.At v s) : h.stash s = v.stash := by
  rw [← h.view_stash, hs]

theorem stashPending_yields (hv : v.stash = .empty) (outcome : Except Fault V) :
    (h.stashPending outcome).Yields (h.At v) () (h.At { v with stash := .pending outcome }) := by
  unfold Protocol.stashPending
  refine .get_bind fun s hs => ?_
  rw [h.stash_eq hs, hv]
  rintro _ rfl
  exact ⟨rfl, h.at_setStash hs _⟩

theorem takePending_yields {outcome : Except Fault V} (hv : v.stash = .pending outcome) :
    h.takePending.Yields (h.At v) outcome (h.At { v with stash := .empty }) := by
  unfold Protocol.takePending
  refine .get_bind fun s hs => ?_
  rw [h.stash_eq hs, hv]
  rintro _ rfl
  exact ⟨rfl, h.at_setStash hs _⟩

theorem takeResolved_yields {value : V} (hv : v.stash = .resolved value) :
    h.takeResolved.Yields (h.At v) value (h.At { v with stash := .empty }) := by
  unfold Protocol.takeResolved
  refine .get_bind fun s hs => ?_
  rw [h.stash_eq hs, hv]
  rintro _ rfl
  exact ⟨rfl, h.at_setStash hs _⟩

/-! ## Imports -/

/-- An import of a guest that rewinds answers what has arrived and calls nothing. -/
theorem intercept_rewinding {value : V} (hphase : v.phase = .rewinding)
    (hstash : v.stash = .resolved value) (call : Action σ (HostValue V)) :
    (h.intercept call).Yields (h.At v) (some value)
      (h.At ⟨.normal, .empty, effect .stopRewind v.own⟩) := by
  unfold Protocol.intercept
  refine (h.state_yields v).bind ?_
  simp only [hphase, if_true]
  refine (h.stopRewind_yields v).bind ?_
  have htake := h.takeResolved_yields (v := v.told effect .stopRewind) hstash
  exact htake.bind .pure

/-- An import of a guest that unwinds fails and calls nothing. -/
theorem intercept_unwinding (hphase : v.phase = .unwinding) (call : Action σ (HostValue V)) :
    (h.intercept call).Fails (h.At v) (.suspensionState .normal .unwinding) (h.At v) := by
  unfold Protocol.intercept
  refine (h.state_yields v).ensures_bind ?_
  simp only [hphase, reduceCtorEq, if_false]
  have hne : v.phase ≠ .normal := by simp [hphase]
  have hfails := h.expect_fails hne
  rw [hphase] at hfails
  exact hfails.bind

/-- An import of a guest that runs as usual ends as the host's part of it does.  If the host has no
answer yet, the guest is told to unwind. -/
theorem intercept_normal {call : Action σ (HostValue V)}
    {Q : Except Fault (HostValue V) → View V ρ → Prop}
    {S : Except Fault (Option V) → View V ρ → Prop} (hphase : v.phase = .normal)
    (hcall : h.Sees call v Q) (he : ∀ e w, Q (.error e) w → S (.error e) w)
    (hready : ∀ x w, Q (.ok (.ready x)) w → S (.ok (some x)) w)
    (hpending : ∀ o w, Q (.ok (.pending o)) w → w.stash = .empty ∧
      S (.ok none) (View.told effect (.startUnwind h.dataPtr) { w with stash := .pending o })) :
    h.Sees (h.intercept call) v S := by
  unfold Protocol.intercept
  refine (h.state_yields v).ensures_bind ?_
  simp only [hphase, reduceCtorEq, if_false]
  refine (h.expect_normal hphase).ensures_bind (hcall.bind (fun x => ?_) fun e s => he e _)
  cases x with
  | ready x => exact .pure fun s => hready x _
  | pending o =>
    refine h.ensures_of_sees fun w hw => ?_
    obtain ⟨hempty, hS⟩ := hpending o w hw
    refine (h.stashPending_yields hempty o).ensures_bind ?_
    refine (h.startUnwind_yields h.dataPtr _).ensures_bind (.pure fun s hs => ?_)
    rw [hs]
    exact hS

theorem intercept_ready {call : Action σ (HostValue V)} {x : V} {w : View V ρ}
    (hphase : v.phase = .normal) (hcall : call.Yields (h.At v) (.ready x) (h.At w)) :
    (h.intercept call).Yields (h.At v) (some x) (h.At w) := by
  have hsees : h.Sees call v fun r u => r = .ok (.ready x) ∧ u = w := hcall
  refine h.intercept_normal (S := fun r u => r = .ok (some x) ∧ u = w) hphase hsees ?_ ?_ ?_
  · rintro e u ⟨he, -⟩
    cases he
  · rintro y u ⟨hy, hu⟩
    cases hy
    exact ⟨rfl, hu⟩
  · rintro o u ⟨ho, -⟩
    cases ho

theorem intercept_pending {call : Action σ (HostValue V)} {o : Except Fault V} {w : View V ρ}
    (hphase : v.phase = .normal) (hcall : call.Yields (h.At v) (.pending o) (h.At w))
    (hempty : w.stash = .empty) :
    (h.intercept call).Yields (h.At v) none
      (h.At (View.told effect (.startUnwind h.dataPtr) { w with stash := .pending o })) := by
  have hsees : h.Sees call v fun r u => r = .ok (.pending o) ∧ u = w := hcall
  refine h.intercept_normal (S := fun r u => r = .ok none ∧ u = _) hphase hsees ?_ ?_ ?_
  · rintro e u ⟨he, -⟩
    cases he
  · rintro y u ⟨hy, -⟩
    cases hy
  · rintro o' u ⟨ho, rfl⟩
    cases ho
    exact ⟨hempty, rfl, rfl⟩

/-! ## Exports -/

/-- An export that comes back unwinding awaits the pending answer. -/
theorem settle_unwinding {outcome : Except Fault V} (hphase : v.phase = .unwinding)
    (hstash : v.stash = .pending outcome) (result : R) :
    (h.settle result).Yields (h.At v) (.awaiting outcome)
      (h.At ⟨.normal, .empty, effect .stopUnwind v.own⟩) := by
  unfold Protocol.settle
  refine (h.state_yields v).bind ?_
  simp only [hphase, if_true]
  refine (h.stopUnwind_yields v).bind ?_
  have htake := h.takePending_yields (v := v.told effect .stopUnwind) hstash
  exact htake.bind .pure

theorem settle_normal (hphase : v.phase = .normal) (result : R) :
    (h.settle result).Yields (h.At v) (.finished result) (h.At v) := by
  unfold Protocol.settle
  refine (h.state_yields v).bind ?_
  simp only [hphase, reduceCtorEq, if_false]
  exact (h.expect_normal hphase).bind .pure

/-- An export that comes back still rewinding is at fault. -/
theorem settle_rewinding (hphase : v.phase = .rewinding) (result : R) :
    (h.settle result).Fails (h.At v) (.suspensionState .normal .rewinding) (h.At v) := by
  unfold Protocol.settle
  refine (h.state_yields v).ensures_bind ?_
  simp only [hphase, reduceCtorEq, if_false]
  have hne : v.phase ≠ .normal := by simp [hphase]
  have hfails := h.expect_fails hne
  rw [hphase] at hfails
  exact hfails.bind

variable {call : Action σ R}

/-- An export is called by a guest that runs as usual, and then settled. -/
theorem begin_normal (hphase : v.phase = .normal) :
    (h.begin call).GoesOn (h.At v) (call >>= h.settle) (h.At v) :=
  (h.expect_normal hphase).goesOn

theorem begin_fails (hphase : v.phase ≠ .normal) :
    (h.begin call).Fails (h.At v) (.suspensionState .normal v.phase) (h.At v) :=
  (h.expect_fails hphase).bind

/-- An export that gets the answer it awaits is called again by a guest that rewinds, and then
settled. -/
theorem resume_ok {value : V} (hphase : v.phase = .normal) :
    (h.resume call (.ok value)).GoesOn (h.At v) (call >>= h.settle)
      (h.At ⟨.rewinding, .resolved value, effect (.startRewind h.dataPtr) v.own⟩) := by
  unfold Protocol.resume
  have hlift : (liftM (.ok value : Except Fault V) : Action σ V).Yields (h.At v) value (h.At v) :=
    fun s hs => ⟨rfl, hs⟩
  have hset : (modify (h.setStash (.resolved value)) : Action σ Unit).Yields (h.At v) ()
      (h.At { v with stash := .resolved value }) :=
    fun s hs => ⟨rfl, h.at_setStash hs _⟩
  have hexpect := h.expect_normal (v := { v with stash := .resolved value }) hphase
  refine hlift.goesOn.trans (hset.goesOn.trans (hexpect.goesOn.trans ?_))
  exact (h.startRewind_yields h.dataPtr _).goesOn

/-- An answer that fails to arrive is the failure of the export. -/
theorem resume_error (e : Fault) :
    (h.resume call (.error e)).Fails (h.At v) e (h.At v) := by
  unfold Protocol.resume
  have hlift : (liftM (.error e : Except Fault V) : Action σ V).Fails (h.At v) e (h.At v) :=
    fun s hs => ⟨rfl, hs⟩
  exact hlift.bind

/-! ## A log of the commands -/

section Logged

variable {ε : Type} (entries : Command → List ε)

/-- What a command does to a log. -/
def logging (effect : Command → ρ → ρ) : Command → ρ × List ε → ρ × List ε :=
  fun c x => (effect c x.1, x.2 ++ entries c)

/-- The view of a state with a log. -/
def loggedView (t : Logged σ ε) : View V (ρ × List ε) :=
  { phase := (h.view t.state).phase, stash := (h.view t.state).stash,
    own := ((h.view t.state).own, t.log) }

theorem loggedView_eq_iff {t : Logged σ ε} {w : View V (ρ × List ε)} :
    h.loggedView t = w ↔ h.view t.state = ⟨w.phase, w.stash, w.own.1⟩ ∧ t.log = w.own.2 := by
  rcases w with ⟨phase, stash, own, log⟩
  rcases hv : h.view t.state with ⟨phase', stash', own'⟩
  simp only [loggedView, hv, View.mk.injEq, Prod.mk.injEq, and_assoc]

/-- A command that is logged before it is given. -/
theorem told_yields {c : Command} {a : Action σ Unit}
    (ha : ∀ v, a.Yields (h.view · = v) () (h.view · = v.told effect c))
    (w : View V (ρ × List ε)) :
    (do Action.record (entries c); a.under).Yields (h.loggedView · = w) ()
      (h.loggedView · = w.told (logging entries effect) c) := by
  simp only [loggedView_eq_iff]
  have hrecord := Action.record_yields (P := (h.view · = ⟨w.phase, w.stash, w.own.1⟩))
    (entries c) w.own.2
  exact hrecord.bind ((ha _).under _)

/-- The same guest, with a log of the commands that it is given. -/
def logged : Faithful (Logged σ ε) V (logging entries effect) where
  state := h.state.under
  startUnwind ptr := do Action.record (entries (.startUnwind ptr)); (h.startUnwind ptr).under
  stopUnwind := do Action.record (entries .stopUnwind); h.stopUnwind.under
  startRewind ptr := do Action.record (entries (.startRewind ptr)); (h.startRewind ptr).under
  stopRewind := do Action.record (entries .stopRewind); h.stopRewind.under
  dataPtr := h.dataPtr
  stash t := h.stash t.state
  setStash x t := { t with state := h.setStash x t.state }
  view := h.loggedView
  setOwn x t := { state := h.setOwn x.1 t.state, log := x.2 }
  view_stash t := h.view_stash t.state
  view_setStash x t := by rw [loggedView_eq_iff, h.view_setStash]; exact ⟨rfl, rfl⟩
  view_setOwn x t := by rw [loggedView_eq_iff, h.view_setOwn]; exact ⟨rfl, rfl⟩
  state_yields w := by simpa only [loggedView_eq_iff] using (h.state_yields _).under w.own.2
  startUnwind_yields ptr := h.told_yields entries (h.startUnwind_yields ptr)
  stopUnwind_yields := h.told_yields entries h.stopUnwind_yields
  startRewind_yields ptr := h.told_yields entries (h.startRewind_yields ptr)
  stopRewind_yields := h.told_yields entries h.stopRewind_yields

end Logged

end Faithful

end Suspension

end GuestHost
