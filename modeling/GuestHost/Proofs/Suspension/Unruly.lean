import GuestHost.Proofs.Suspension.Faithful
import Mathlib.Data.List.Chain

/-!
# Guests that may answer anything

`Unruly` is a protocol about whose guest nothing is known: it may report any state, and its
controls may fail or do anything, as long as they leave the stash alone.  A `Visit` is an export of
such a guest, which may call imports whenever it likes.  `Unruly.session` drives any number of
exports, and writes down everything that is asked and told, run, stashed and answered, each `Entry`
with the stash at that moment.  The log only watches: an import and an export do to the state what
they do without it, `intercept_mirrors` and `drive_mirrors`.

`Follows` says what may come directly after an entry, and `session_chained` that the log of every
session is a chain of it.  Each part of the protocol adds entries to a chain (`intercept_adds`,
`settle_adds`, `resume_adds`); inductions on the export, the rounds and the session carry that to a
whole run.
-/

namespace GuestHost

namespace Suspension

variable {σ V R α : Type}

/-- An action that leaves the stash as it is, however it ends. -/
def Quiet (stash : σ → Stash V) (a : Action σ α) : Prop := ∀ s, stash (a.apply s).2 = stash s

/-- A protocol whose guest may do anything but touch the stash. -/
structure Unruly (σ V : Type) extends Protocol σ V where
  stash_setStash : ∀ x s, stash (setStash x s) = x
  state_quiet : Quiet stash state
  startUnwind_quiet : ∀ ptr, Quiet stash (startUnwind ptr)
  stopUnwind_quiet : Quiet stash stopUnwind
  startRewind_quiet : ∀ ptr, Quiet stash (startRewind ptr)
  stopRewind_quiet : Quiet stash stopRewind

/-- An export that may do anything but touch the stash. -/
inductive Visit (h : Unruly σ V) (R : Type) where
  /-- It returns or fails. -/
  | finish (outcome : Except Fault R)
  /-- It does something of its own and goes on as it finds the state then. -/
  | act (f : σ → σ) (quiet : ∀ s, h.stash (f s) = h.stash s) (next : σ → Visit h R)
  /-- It calls an import, with this as the host's part, and goes on with the outcome. -/
  | call (host : Action σ (HostValue V)) (quiet : Quiet h.stash host)
      (next : Except Fault (Option V) → Visit h R)

/-- What happens in a session. -/
inductive Occurrence (V R : Type) where
  | opened
  /-- The guest was asked what it is doing. -/
  | asked (answer : Except Fault State)
  | told (command : Command) (outcome : Except Fault Unit)
  /-- The host's part of an import was run. -/
  | ran (outcome : Except Fault (HostValue V))
  | stashed (stash : Stash V)
  /-- An import has come back. -/
  | answered (outcome : Except Fault (Option V))
  /-- A drive has come back, or has been abandoned. -/
  | left (outcome : Except Fault R)

/-- An event, and the stash when it happened. -/
structure Entry (V R : Type) where
  stash : Stash V
  event : Occurrence V R

/-- The stash after an entry. -/
def Entry.after (e : Entry V R) : Stash V :=
  match e.event with
  | .stashed stash => stash
  | _ => e.stash

/-! ## Sessions under a log -/

namespace Unruly

variable (h : Unruly σ V)

/-- Adds an entry about what happened, with the stash as it is. -/
def note (event : Occurrence V R) : Action (Logged σ (Entry V R)) Unit :=
  modify fun t => { t with log := t.log ++ [⟨h.stash t.state, event⟩] }

/-- The action under a log to which its outcome is added. -/
def watch (event : Except Fault α → Occurrence V R) (a : Action σ α) :
    Action (Logged σ (Entry V R)) α := do
  let outcome ← a.under.attempt
  h.note (event outcome)
  liftM outcome

/-- The protocol with everything written down. -/
def watched (R : Type) : Protocol (Logged σ (Entry V R)) V where
  state := h.watch .asked h.state
  startUnwind ptr := h.watch (.told (.startUnwind ptr)) (h.startUnwind ptr)
  stopUnwind := h.watch (.told .stopUnwind) h.stopUnwind
  startRewind ptr := h.watch (.told (.startRewind ptr)) (h.startRewind ptr)
  stopRewind := h.watch (.told .stopRewind) h.stopRewind
  dataPtr := h.dataPtr
  stash t := h.stash t.state
  setStash x t :=
    { state := h.setStash x t.state, log := t.log ++ [⟨h.stash t.state, .stashed x⟩] }

end Unruly

/-! ## The log only watches -/

/-- An action under a log does to the state what another action does. -/
def Mirrors {ε : Type} (b : Action (Logged σ ε) α) (a : Action σ α) : Prop :=
  ∀ t, (b.apply t).1 = (a.apply t.state).1 ∧ (b.apply t).2.state = (a.apply t.state).2

section Mirrors

variable {ε β : Type} {a : Action σ α} {b : Action (Logged σ ε) α}

theorem Mirrors.pure (x : α) : Mirrors (pure x : Action (Logged σ ε) α) (pure x) :=
  fun _ => ⟨rfl, rfl⟩

theorem Mirrors.throw (f : Fault) : Mirrors (throw f : Action (Logged σ ε) α) (throw f) :=
  fun _ => ⟨rfl, rfl⟩

theorem Mirrors.liftM (r : Except Fault α) :
    Mirrors (liftM r : Action (Logged σ ε) α) (liftM r) := by
  intro t
  rw [Action.apply_liftM, Action.apply_liftM]
  exact ⟨rfl, rfl⟩

theorem Mirrors.bind {f : α → Action σ β} {g : α → Action (Logged σ ε) β} (h : Mirrors b a)
    (hfg : ∀ x, Mirrors (g x) (f x)) : Mirrors (b >>= g) (a >>= f) := by
  intro t
  obtain ⟨hr, hs⟩ := h t
  rw [Action.apply_bind, Action.apply_bind]
  rcases hb : b.apply t with ⟨r, t'⟩
  rcases ha : a.apply t.state with ⟨r', s'⟩
  rw [hb, ha] at hr hs
  cases hr
  cases hs
  cases r with
  | ok x => exact hfg x t'
  | error f => exact ⟨rfl, rfl⟩

theorem Mirrors.get_bind {f : σ → Action σ α} {g : Logged σ ε → Action (Logged σ ε) α}
    (hfg : ∀ t, Mirrors (g t) (f t.state)) : Mirrors (get >>= g) (get >>= f) := by
  intro t
  rw [Action.apply_bind, Action.apply_get, Action.apply_bind, Action.apply_get]
  exact hfg t t

end Mirrors

namespace Unruly

variable (h : Unruly σ V)

theorem apply_watch (event : Except Fault α → Occurrence V R) (a : Action σ α)
    (t : Logged σ (Entry V R)) : (h.watch event a).apply t =
      ((a.apply t.state).1, ⟨(a.apply t.state).2,
        t.log ++ [⟨h.stash (a.apply t.state).2, event (a.apply t.state).1⟩]⟩) := by
  rw [watch, Action.apply_bind]
  change (h.note (event (a.apply t.state).1) >>= fun _ =>
    liftM (a.apply t.state).1).apply { t with state := (a.apply t.state).2 } = _
  rw [Action.apply_bind, note, Action.apply_modify]
  exact Action.apply_liftM _ _

theorem watch_mirrors (event : Except Fault α → Occurrence V R) (a : Action σ α) :
    Mirrors (h.watch event a) a := by
  intro t
  rw [apply_watch]
  exact ⟨rfl, rfl⟩

theorem expect_mirrors (expected : State) :
    Mirrors ((h.watched R).expect expected) (h.expect expected) := by
  unfold Protocol.expect
  refine (h.watch_mirrors _ h.state).bind fun s => ?_
  split
  · exact .throw _
  · exact .pure ()

theorem setStash_mirrors (x : Stash V) :
    Mirrors (modify ((h.watched R).setStash x)) (modify (h.setStash x)) :=
  fun _ => ⟨rfl, rfl⟩

theorem stashPending_mirrors (o : Except Fault V) :
    Mirrors ((h.watched R).stashPending o) (h.stashPending o) := by
  refine .get_bind fun t => ?_
  change Mirrors (if (h.stash t.state).isEmpty then _ else _) _
  split
  · exact h.setStash_mirrors _
  · exact .throw _

theorem takePending_mirrors : Mirrors (h.watched R).takePending h.takePending := by
  refine .get_bind fun t => ?_
  have hstash : (h.watched R).stash t = h.stash t.state := rfl
  rw [hstash]
  cases h.stash t.state with
  | pending o => exact (h.setStash_mirrors _).bind fun _ => .pure o
  | empty | resolved v => exact .throw _

theorem takeResolved_mirrors : Mirrors (h.watched R).takeResolved h.takeResolved := by
  refine .get_bind fun t => ?_
  have hstash : (h.watched R).stash t = h.stash t.state := rfl
  rw [hstash]
  cases h.stash t.state with
  | resolved v => exact (h.setStash_mirrors _).bind fun _ => .pure v
  | empty | pending o => exact .throw _

theorem intercept_mirrors (host : Action σ (HostValue V)) :
    Mirrors ((h.watched R).intercept (h.watch .ran host)) (h.intercept host) := by
  refine (h.watch_mirrors _ h.state).bind fun s => ?_
  split
  · refine (h.watch_mirrors _ h.stopRewind).bind fun _ => ?_
    exact h.takeResolved_mirrors.bind fun v => .pure _
  · refine (h.expect_mirrors .normal).bind fun _ => (h.watch_mirrors _ host).bind fun answer => ?_
    cases answer with
    | ready v => exact .pure _
    | pending o =>
      refine (h.stashPending_mirrors o).bind fun _ => ?_
      exact (h.watch_mirrors _ (h.startUnwind h.dataPtr)).bind fun _ => .pure _

theorem settle_mirrors (r : R) : Mirrors ((h.watched R).settle r) (h.settle r) := by
  refine (h.watch_mirrors _ h.state).bind fun s => ?_
  split
  · refine (h.watch_mirrors _ h.stopUnwind).bind fun _ => ?_
    exact h.takePending_mirrors.bind fun o => .pure _
  · exact (h.expect_mirrors .normal).bind fun _ => .pure _

/-- An export that is driven under the log does what it does without. -/
theorem drive_mirrors (rounds : Nat) {call : Action σ R} {watched : Action (Logged σ (Entry V R)) R}
    (hcall : Mirrors watched call) :
    Mirrors ((h.watched R).drive rounds watched) (h.drive rounds call) := by
  have hsettle : Mirrors (watched >>= (h.watched R).settle) (call >>= h.settle) :=
    hcall.bind h.settle_mirrors
  have hresume (o : Except Fault V) :
      Mirrors ((h.watched R).resume watched o) (h.resume call o) := by
    refine (Mirrors.liftM o).bind fun v => (h.setStash_mirrors _).bind fun _ => ?_
    refine (h.expect_mirrors .normal).bind fun _ => ?_
    exact (h.watch_mirrors _ (h.startRewind h.dataPtr)).bind fun _ => hsettle
  have hfollow (n : Nat) (d : Drive R V) :
      Mirrors ((h.watched R).follow watched n d) (h.follow call n d) := by
    induction n generalizing d with
    | zero =>
      cases d with
      | finished r => exact .pure r
      | awaiting o => exact .throw _
    | succ n ih =>
      cases d with
      | finished r => exact .pure r
      | awaiting o => exact (hresume o).bind ih
  exact ((h.expect_mirrors .normal).bind fun _ => hsettle).bind (hfollow rounds)

end Unruly

/-- Runs what a visit does. -/
def Visit.run {h : Unruly σ V} : Visit h R → Action (Logged σ (Entry V R)) R
  | finish outcome => liftM outcome
  | act f _ next => do
    modify fun t => { t with state := f t.state }
    let t ← get
    (next t.state).run
  | call host _ next => do
    let outcome ← ((h.watched R).intercept (h.watch .ran host)).attempt
    h.note (.answered outcome)
    (next outcome).run

/-- Drives an export for at most so many rounds, and writes down how that ended. -/
def Visit.drive {h : Unruly σ V} (rounds : Nat) (v : Visit h R) :
    Action (Logged σ (Entry V R)) Unit := do
  let outcome ← ((h.watched R).drive rounds v.run).attempt
  h.note (.left outcome)

/-- Drives one export after the other, each for at most so many rounds, beginning with nothing
stashed. -/
def Unruly.session (h : Unruly σ V) (visits : List (Nat × Visit h R)) (s : σ) :
    Logged σ (Entry V R) :=
  visits.foldl (fun t v => ((v.2.drive v.1).apply t).2)
    { state := h.setStash .empty s, log := [⟨.empty, .opened⟩] }

/-! ## What follows what -/

/-- The guest's own code runs after the entry. -/
inductive Entry.Runs : Entry V R → Prop where
  | entered (x : Stash V) : Runs ⟨x, .asked (.ok .normal)⟩
  | resumed (x : Stash V) (ptr : UInt32) : Runs ⟨x, .told (.startRewind ptr) (.ok ())⟩
  | answered (x : Stash V) (outcome : Except Fault (Option V)) : Runs ⟨x, .answered outcome⟩

/-- No export is being driven after the entry. -/
inductive Entry.Rests : Entry V R → Prop where
  | opened (x : Stash V) : Rests ⟨x, .opened⟩
  | left (x : Stash V) (outcome : Except Fault R) : Rests ⟨x, .left outcome⟩

/-- The events that may come directly after an entry. -/
inductive Follows : Entry V R → Occurrence V R → Prop where
  | drive {e a} (h : e.Rests) : Follows e (.asked a)
  | turn {e a} (h : e.Runs) : Follows e (.asked a)
  | failed {e f} (h : e.Runs) : Follows e (.left (.error f))
  -- A question is asked again before a guest counts as running as usual.
  | again {x s a} : Follows ⟨x, .asked (.ok s)⟩ (.asked a)
  | unfit_import {x a f} (h : a ≠ .ok .normal) : Follows ⟨x, .asked a⟩ (.answered (.error f))
  | unfit_export {x a f} (h : a ≠ .ok .normal) : Follows ⟨x, .asked a⟩ (.left (.error f))
  | returned {x r} : Follows ⟨x, .asked (.ok .normal)⟩ (.left (.ok r))
  -- An import runs the host's part, and unwinds the guest if that has no answer yet.
  | run {x r} : Follows ⟨x, .asked (.ok .normal)⟩ (.ran r)
  | run_failed {x f} : Follows ⟨x, .ran (.error f)⟩ (.answered (.error f))
  | ready {x v} : Follows ⟨x, .ran (.ok (.ready v))⟩ (.answered (.ok (some v)))
  | accept {o} : Follows ⟨.empty, .ran (.ok (.pending o))⟩ (.stashed (.pending o))
  | refuse {x o} (h : x ≠ .empty) :
    Follows ⟨x, .ran (.ok (.pending o))⟩ (.answered (.error (.suspension .alreadyInFlight)))
  | unwind {o ptr r} : Follows ⟨.empty, .stashed (.pending o)⟩ (.told (.startUnwind ptr) r)
  | unwinding {x ptr} : Follows ⟨x, .told (.startUnwind ptr) (.ok ())⟩ (.answered (.ok none))
  | unwind_failed {x ptr f} :
    Follows ⟨x, .told (.startUnwind ptr) (.error f)⟩ (.answered (.error f))
  -- An import of a guest that rewinds takes what has arrived.
  | rewound {x r} : Follows ⟨x, .asked (.ok .rewinding)⟩ (.told .stopRewind r)
  | rewound_failed {x f} : Follows ⟨x, .told .stopRewind (.error f)⟩ (.answered (.error f))
  | take_resolved {v} : Follows ⟨.resolved v, .told .stopRewind (.ok ())⟩ (.stashed .empty)
  | nothing_resolved {x} (h : ∀ v, x ≠ .resolved v) :
    Follows ⟨x, .told .stopRewind (.ok ())⟩ (.answered (.error (.suspension .nothingResolved)))
  | delivered {v} : Follows ⟨.resolved v, .stashed .empty⟩ (.answered (.ok (some v)))
  -- An export that comes back unwinding is awaited, unless the host gives up, and called again.
  | unwound {x r} : Follows ⟨x, .asked (.ok .unwinding)⟩ (.told .stopUnwind r)
  | unwound_failed {x f} : Follows ⟨x, .told .stopUnwind (.error f)⟩ (.left (.error f))
  | take_pending {o} : Follows ⟨.pending o, .told .stopUnwind (.ok ())⟩ (.stashed .empty)
  | nothing_pending {x} (h : ∀ o, x ≠ .pending o) :
    Follows ⟨x, .told .stopUnwind (.ok ())⟩ (.left (.error (.suspension .nothingPending)))
  | given_up {o} : Follows ⟨.pending o, .stashed .empty⟩ (.left (.error (.trap .outOfFuel)))
  | not_arrived {f} : Follows ⟨.pending (.error f), .stashed .empty⟩ (.left (.error f))
  | arrived {v} : Follows ⟨.pending (.ok v), .stashed .empty⟩ (.stashed (.resolved v))
  | check {v a} : Follows ⟨.empty, .stashed (.resolved v)⟩ (.asked a)
  | rewind {v ptr r} :
    Follows ⟨.resolved v, .asked (.ok .normal)⟩ (.told (.startRewind ptr) r)
  | rewind_failed {x ptr f} :
    Follows ⟨x, .told (.startRewind ptr) (.error f)⟩ (.left (.error f))

/-- One entry may come directly after another: the stash changes where it is replaced only. -/
def Next (e e' : Entry V R) : Prop := e'.stash = e.after ∧ Follows e e'.event

/-- A log that begins with nothing stashed, ends where no export is driven, and is a chain of what
follows what. -/
structure Chained (log : List (Entry V R)) : Prop where
  head : log.head? = some ⟨.empty, .opened⟩
  chain : log.IsChain Next
  last : ∃ e, e.Rests ∧ log.getLast? = some e

/-! ## The parts of the protocol -/

namespace Unruly

variable (h : Unruly σ V)

/-- The log is a chain that ends with an entry, after which the stash is as it says. -/
structure At (e : Entry V R) (t : Logged σ (Entry V R)) : Prop where
  head : t.log.head? = some ⟨.empty, .opened⟩
  chain : t.log.IsChain Next
  last : t.log.getLast? = some e
  stash : h.stash t.state = e.after

/-- The log is a chain that ends with an entry that satisfies `P`. -/
def Ends (P : Entry V R → Prop) (t : Logged σ (Entry V R)) : Prop := ∃ e, P e ∧ h.At e t

/-- With this entry, a failure is that of an import as well as that of an export. -/
def Failing (f : Fault) (e : Entry V R) : Prop :=
  Follows e (.answered (.error f)) ∧ Follows e (.left (.error f))

variable {h} {e : Entry V R} {t : Logged σ (Entry V R)} {event : Except Fault α → Occurrence V R}
  {a : Action σ α}

theorem At.add {s : σ} {ev : Occurrence V R} (ht : h.At e t) (hf : Follows e ev)
    (hs : h.stash s = (Entry.mk e.after ev).after) :
    h.At ⟨e.after, ev⟩ { state := s, log := t.log ++ [⟨e.after, ev⟩] } := by
  refine ⟨?_, ?_, List.getLast?_concat, hs⟩
  · rw [List.head?_append, ht.head]
    rfl
  · rw [List.isChain_append]
    refine ⟨ht.chain, List.isChain_singleton _, fun x hx y hy => ?_⟩
    rw [ht.last, Option.mem_some_iff] at hx
    rw [List.head?_cons, Option.mem_some_iff] at hy
    subst hx hy
    exact ⟨rfl, hf⟩

theorem watch_adds (quiet : Quiet h.stash a)
    (hafter : ∀ r, (Entry.mk e.after (event r)).after = e.after)
    (hf : ∀ r, Follows e (event r)) :
    (h.watch event a).Ensures (h.At e) fun r => h.At ⟨e.after, event r⟩ := by
  intro t ht
  have hs : h.stash (a.apply t.state).2 = e.after := by rw [quiet, ht.stash]
  rw [apply_watch, hs]
  exact ht.add (hf _) (by rw [hs, hafter])

theorem setStash_adds {x : Stash V} (hf : Follows e (.stashed x)) :
    (modify ((h.watched R).setStash x) : Action (Logged σ (Entry V R)) Unit).Yields (h.At e) ()
      (h.At ⟨e.after, .stashed x⟩) := by
  intro t ht
  refine ⟨rfl, ?_⟩
  rw [Action.apply_modify]
  change h.At _ ⟨h.setStash x t.state, t.log ++ [⟨h.stash t.state, .stashed x⟩]⟩
  rw [ht.stash]
  exact ht.add hf (h.stash_setStash x t.state)

theorem ensures_of_imp {a : Action (Logged σ (Entry V R)) α} {p : Prop}
    {P P' : Logged σ (Entry V R) → Prop} {Q : Except Fault α → Logged σ (Entry V R) → Prop}
    (hP : ∀ t, P' t → p ∧ P t) (ha : p → a.Ensures P Q) : a.Ensures P' Q :=
  fun t ht => ha (hP t ht).1 t (hP t ht).2

theorem ensures_of_ends {P : Entry V R → Prop} {a : Action (Logged σ (Entry V R)) α}
    {Q : Except Fault α → Logged σ (Entry V R) → Prop} (ha : ∀ e, P e → a.Ensures (h.At e) Q) :
    a.Ensures (h.Ends P) Q := by
  rintro t ⟨e, he, ht⟩
  exact ha e he t ht

/-- A guest that is found in another state than the usual one ends what is going on. -/
theorem expect_adds (hf : ∀ a, Follows e (.asked a)) :
    ((h.watched R).expect .normal).Ensures (h.At e) fun
      | .ok _ => h.At ⟨e.after, .asked (.ok .normal)⟩
      | .error f => h.Ends (Failing f) := by
  unfold Protocol.expect
  refine (watch_adds h.state_quiet (fun _ => rfl) hf).bind (fun s => ?_) fun f t ht => ?_
  · by_cases hs : s = .normal
    · subst hs
      exact .pure fun _ ht => ht
    · have hne : (.ok s : Except Fault State) ≠ .ok .normal := by simpa using hs
      simp only [ne_eq, hs, not_false_eq_true, if_true]
      exact .throw fun t ht => ⟨_, ⟨.unfit_import hne, .unfit_export hne⟩, ht⟩
  · exact ⟨_, ⟨.unfit_import (by simp), .unfit_export (by simp)⟩, ht⟩

theorem stash_eq (ht : h.At e t) : (h.watched R).stash t = e.after := ht.stash

theorem At.replace (ht : h.At e t) {x : Stash V} (hf : Follows e (.stashed x)) :
    (modify ((h.watched R).setStash x) : Action (Logged σ (Entry V R)) Unit).Yields (· = t) ()
      (h.At ⟨e.after, .stashed x⟩) :=
  (setStash_adds hf).mono (fun _ heq => heq ▸ ht) fun _ ht => ht

theorem stashPending_adds {x : Stash V} {o : Except Fault V} :
    ((h.watched R).stashPending o).Ensures (h.At ⟨x, .ran (.ok (.pending o))⟩) fun
      | .ok _ => h.At ⟨.empty, .stashed (.pending o)⟩
      | .error f => h.Ends (Follows · (.answered (.error f))) := by
  unfold Protocol.stashPending
  refine .get_bind fun t ht => ?_
  have hrefused (hx : x ≠ .empty) : (throw (.suspension .alreadyInFlight) :
      Action (Logged σ (Entry V R)) Unit).Ensures (· = t) fun
        | .ok _ => h.At ⟨.empty, .stashed (.pending o)⟩
        | .error f => h.Ends (Follows · (.answered (.error f))) := by
    refine .throw ?_
    rintro _ rfl
    exact ⟨_, .refuse hx, ht⟩
  rw [stash_eq ht]
  cases x with
  | empty =>
    refine Action.Ensures.mono (ht.replace .accept) (fun _ heq => heq) ?_
    rintro _ t ⟨rfl, ht⟩
    exact ht
  | pending o' => exact hrefused (by simp)
  | resolved v => exact hrefused (by simp)

theorem takeResolved_adds {x : Stash V} :
    ((h.watched R).takeResolved).Ensures (h.At ⟨x, .told .stopRewind (.ok ())⟩) fun r =>
      h.Ends (Follows · (.answered (r.map some))) := by
  unfold Protocol.takeResolved
  refine .get_bind fun t ht => ?_
  have hwrong (hx : ∀ v, x ≠ .resolved v) : (throw (.suspension .nothingResolved) :
      Action (Logged σ (Entry V R)) V).Ensures (· = t) fun r =>
        h.Ends (Follows · (.answered (r.map some))) := by
    refine .throw ?_
    rintro _ rfl
    exact ⟨_, .nothing_resolved hx, ht⟩
  rw [stash_eq ht]
  cases x with
  | resolved v =>
    exact (ht.replace .take_resolved).ensures_bind (.pure fun t ht => ⟨_, .delivered, ht⟩)
  | empty => exact hwrong (by simp)
  | pending o => exact hwrong (by simp)

theorem takePending_adds {x : Stash V} :
    ((h.watched R).takePending).Ensures (h.At ⟨x, .told .stopUnwind (.ok ())⟩) fun
      | .ok o => h.At ⟨.pending o, .stashed .empty⟩
      | .error f => h.Ends (Follows · (.left (.error f))) := by
  unfold Protocol.takePending
  refine .get_bind fun t ht => ?_
  have hwrong (hx : ∀ o, x ≠ .pending o) : (throw (.suspension .nothingPending) :
      Action (Logged σ (Entry V R)) (Except Fault V)).Ensures (· = t) fun
        | .ok o => h.At ⟨.pending o, .stashed .empty⟩
        | .error f => h.Ends (Follows · (.left (.error f))) := by
    refine .throw ?_
    rintro _ rfl
    exact ⟨_, .nothing_pending hx, ht⟩
  rw [stash_eq ht]
  cases x with
  | pending o => exact (ht.replace .take_pending).ensures_bind (.pure fun t ht => ht)
  | empty => exact hwrong (by simp)
  | resolved v => exact hwrong (by simp)

/-- An import adds what leads up to its answer. -/
theorem intercept_adds {host : Action σ (HostValue V)} (quiet : Quiet h.stash host) :
    ((h.watched R).intercept (h.watch .ran host)).Ensures (h.Ends Entry.Runs) fun r =>
      h.Ends (Follows · (.answered r)) := by
  refine ensures_of_ends fun e hruns => ?_
  unfold Protocol.intercept
  refine (watch_adds h.state_quiet (fun _ => rfl) fun _ => .turn hruns).bind (fun s => ?_)
    fun f t ht => ⟨_, .unfit_import (by simp), ht⟩
  by_cases hs : s = .rewinding
  · subst hs
    simp only [if_true]
    refine (watch_adds h.stopRewind_quiet (fun _ => rfl) fun _ => .rewound).bind (fun _ => ?_)
      fun f t ht => ⟨_, .rewound_failed, ht⟩
    refine takeResolved_adds.bind (fun v => .pure fun t ht => ht) fun f t ht => ht
  · simp only [hs, if_false]
    refine (expect_adds fun _ => .again).bind (fun _ => ?_) fun f t ⟨e', hfail, ht⟩ =>
      ⟨e', hfail.1, ht⟩
    refine (watch_adds quiet (fun _ => rfl) fun _ => .run).bind (fun answer => ?_)
      fun f t ht => ⟨_, .run_failed, ht⟩
    cases answer with
    | ready v => exact .pure fun t ht => ⟨_, .ready, ht⟩
    | pending o =>
      refine stashPending_adds.bind (fun _ => ?_) fun f t ht => ht
      refine (watch_adds (h.startUnwind_quiet _) (fun _ => rfl) fun _ => .unwind).bind
        (fun _ => .pure fun t ht => ⟨_, .unwinding, ht⟩) fun f t ht => ⟨_, .unwind_failed, ht⟩

/-- A call of an export has come back: another event of the guest may follow, or its failure. -/
def Back (h : Unruly σ V) : Except Fault R → Logged σ (Entry V R) → Prop
  | .ok _ => h.Ends Entry.Runs
  | .error f => h.Ends (Follows · (.left (.error f)))

/-- It is found out where an export stands: it may be left, or its answer is to be awaited. -/
def Settled (h : Unruly σ V) : Except Fault (Drive R V) → Logged σ (Entry V R) → Prop
  | .ok (.finished r) => h.Ends (Follows · (.left (.ok r)))
  | .ok (.awaiting o) => h.At ⟨.pending o, .stashed .empty⟩
  | .error f => h.Ends (Follows · (.left (.error f)))

theorem settle_adds (r : R) :
    ((h.watched R).settle r).Ensures (h.Ends Entry.Runs) h.Settled := by
  refine ensures_of_ends fun e hruns => ?_
  unfold Protocol.settle
  refine (watch_adds h.state_quiet (fun _ => rfl) fun _ => .turn hruns).bind (fun s => ?_)
    fun f t ht => ⟨_, .unfit_export (by simp), ht⟩
  by_cases hs : s = .unwinding
  · subst hs
    simp only [if_true]
    refine (watch_adds h.stopUnwind_quiet (fun _ => rfl) fun _ => .unwound).bind (fun _ => ?_)
      fun f t ht => ⟨_, .unwound_failed, ht⟩
    exact takePending_adds.bind (fun o => .pure fun t ht => ht) fun f t ht => ht
  · simp only [hs, if_false]
    exact (expect_adds fun _ => .again).bind (fun _ => .pure fun t ht => ⟨_, .returned, ht⟩)
      fun f t ⟨e', hfail, ht⟩ => ⟨e', hfail.2, ht⟩

section Calls

variable {call : Action (Logged σ (Entry V R)) R} (hcall : call.Ensures (h.Ends Entry.Runs) h.Back)
include hcall

theorem settled_adds : (call >>= (h.watched R).settle).Ensures (h.Ends Entry.Runs) h.Settled :=
  hcall.bind (fun r => settle_adds r) fun _ _ ht => ht

theorem begin_adds : ((h.watched R).begin call).Ensures (h.Ends Entry.Rests) h.Settled := by
  refine ensures_of_ends fun e hrests => ?_
  unfold Protocol.begin
  refine (expect_adds fun _ => .drive hrests).bind (fun _ => ?_) fun f t ⟨e', hfail, ht⟩ =>
    ⟨e', hfail.2, ht⟩
  exact (settled_adds hcall).mono (fun t ht => ⟨_, .entered _, ht⟩) fun r t ht => ht

theorem resume_adds (o : Except Fault V) :
    ((h.watched R).resume call o).Ensures (h.At ⟨.pending o, .stashed .empty⟩) h.Settled := by
  unfold Protocol.resume
  have hlift : (liftM o : Action (Logged σ (Entry V R)) V).Ensures
      (h.At ⟨.pending o, .stashed .empty⟩) fun r t =>
        r = o ∧ h.At ⟨.pending o, .stashed .empty⟩ t := .liftM fun _ ht => ⟨rfl, ht⟩
  refine hlift.bind (fun v => ?_) fun f t ⟨heq, ht⟩ => ⟨_, .not_arrived, heq ▸ ht⟩
  refine ensures_of_imp (fun t ht => ⟨ht.1, ht.2⟩) ?_
  rintro rfl
  -- From here on the answer has arrived, and the export is called again.
  refine (setStash_adds .arrived).ensures_bind ?_
  refine (expect_adds fun _ => .check).bind (fun _ => ?_) fun f t ⟨e', hfail, ht⟩ =>
    ⟨e', hfail.2, ht⟩
  refine (watch_adds (h.startRewind_quiet _) (fun _ => rfl) fun _ => .rewind).bind (fun _ => ?_)
    fun f t ht => ⟨_, .rewind_failed, ht⟩
  exact (settled_adds hcall).mono (fun t ht => ⟨_, .resumed _ _, ht⟩) fun r t ht => ht

theorem follow_adds (rounds : Nat) (d : Drive R V) :
    ((h.watched R).follow call rounds d).Ensures (h.Settled (.ok d)) fun r =>
      h.Ends (Follows · (.left r)) := by
  induction rounds generalizing d with
  | zero =>
    cases d with
    | finished r => exact .pure fun t ht => ht
    | awaiting o => exact .throw fun t ht => ⟨_, .given_up, ht⟩
  | succ rounds ih =>
    cases d with
    | finished r => exact .pure fun t ht => ht
    | awaiting o => exact (resume_adds hcall o).bind (fun d => ih d) fun _ _ ht => ht

theorem drive_adds (rounds : Nat) :
    ((h.watched R).drive rounds call).Ensures (h.Ends Entry.Rests) fun r =>
      h.Ends (Follows · (.left r)) :=
  (begin_adds hcall).bind (fun d => follow_adds hcall rounds d) fun _ _ ht => ht

end Calls

/-! ## Sessions -/

theorem note_adds {ev : Occurrence V R} {P : Entry V R → Prop} (hev : ∀ x, ev ≠ .stashed x)
    (hf : ∀ e, P e → Follows e ev) :
    (h.note ev).Yields (h.Ends P) () (h.Ends (·.event = ev)) := by
  rintro t ⟨e, he, ht⟩
  have hafter : (Entry.mk e.after ev).after = e.after := by
    cases ev with
    | stashed x => exact absurd rfl (hev x)
    | _ => rfl
  refine ⟨rfl, ⟨e.after, ev⟩, rfl, ?_⟩
  rw [note, Action.apply_modify, ht.stash]
  exact ht.add (hf e he) (by rw [ht.stash, hafter])

theorem run_adds (v : Visit h R) : v.run.Ensures (h.Ends Entry.Runs) h.Back := by
  -- The export's own code runs whenever an import has come back, whatever the answer.
  induction v with
  | finish outcome =>
    refine ensures_of_ends fun e hruns => .liftM fun t ht => ?_
    cases outcome with
    | ok r => exact ⟨e, hruns, ht⟩
    | error f => exact ⟨e, .failed hruns, ht⟩
  | act f quiet next ih =>
    have hact : (modify fun t => { t with state := f t.state } :
        Action (Logged σ (Entry V R)) Unit).Yields (h.Ends Entry.Runs) () (h.Ends Entry.Runs) := by
      rintro t ⟨e, hruns, ht⟩
      exact ⟨rfl, e, hruns, ht.head, ht.chain, ht.last, (quiet t.state).trans ht.stash⟩
    refine hact.ensures_bind (.get_bind fun t ht => ?_)
    exact (ih t.state).mono (fun _ heq => heq ▸ ht) fun r t ht => ht
  | call host quiet next ih =>
    refine (intercept_adds quiet).attempt_bind fun outcome => ?_
    refine (note_adds (by simp) fun e he => he).ensures_bind ?_
    refine (ih outcome).mono ?_ fun r t ht => ht
    rintro t ⟨⟨x, ev⟩, rfl, ht⟩
    exact ⟨_, .answered x outcome, ht⟩

theorem visit_adds (rounds : Nat) (v : Visit h R) :
    (v.drive rounds).Preserves (h.Ends Entry.Rests) := by
  refine (drive_adds (run_adds v) rounds).attempt_bind fun outcome => ?_
  refine Action.Ensures.mono (note_adds (by simp) fun e he => he) (fun t ht => ht) ?_
  rintro _ t ⟨-, ⟨x, ev⟩, rfl, ht⟩
  exact ⟨_, .left x outcome, ht⟩

theorem session_chained (h : Unruly σ V) (visits : List (Nat × Visit h R)) (s : σ) :
    Chained (h.session visits s).log := by
  have hstart : h.Ends Entry.Rests
      { state := h.setStash .empty s, log := [(⟨.empty, .opened⟩ : Entry V R)] } :=
    ⟨_, .opened .empty, rfl, List.isChain_singleton _, rfl, h.stash_setStash .empty s⟩
  have hends : h.Ends Entry.Rests (h.session visits s) := by
    rw [session]
    generalize Logged.mk (h.setStash .empty s) [(⟨.empty, .opened⟩ : Entry V R)] = t at hstart
    induction visits generalizing t with
    | nil => exact hstart
    | cons v visits ih => exact ih _ (visit_adds v.1 v.2 t hstart)
  obtain ⟨e, hrests, ht⟩ := hends
  exact ⟨ht.head, ht.chain, e, hrests, ht.last⟩

end Unruly

end Suspension

end GuestHost
