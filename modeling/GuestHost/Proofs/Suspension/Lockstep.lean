import GuestHost.Proofs.Suspension.Faithful

/-!
# Guest and stash stay in step

Between two steps of the protocol there are three ways in which a faithful guest and the stash can
stand to each other, `InStep`.  A `Body` is any export at all: it may call imports whenever it
likes, do as it pleases with their outcomes, and fail; it and its host only leave the guest's state
and the stash alone.  A `session` drives any number of exports, each until it ends or is abandoned
while it awaits an answer, and logs a `Sighting` before and after each import and after each drive.

`inStep_session` says that every sighting finds guest and stash in step, that an export that returns
leaves both at rest, and that the faults of the stash are reported by nobody who does not make them
up.  One step keeps the invariant (`intercept_keeps`, `settle_keeps`, `resume_keeps`); inductions on
the body, the rounds and the session carry it to a whole run.
-/

namespace GuestHost

/-- The faults by which the stash refuses to be filled or emptied. -/
def Fault.OfStash (e : Fault) : Prop :=
  e = .suspension .alreadyInFlight ∨ e = .suspension .nothingPending ∨
    e = .suspension .nothingResolved

namespace Suspension

variable {σ V ρ R : Type} {effect : Command → ρ → ρ}

/-- How the state of a guest and its stash may stand to each other. -/
inductive InStep : State → Stash V → Prop where
  /-- The guest runs as usual and no answer is on its way. -/
  | idle : InStep .normal .empty
  /-- The guest unwinds for an answer that is awaited. -/
  | suspended (outcome : Except Fault V) : InStep .unwinding (.pending outcome)
  /-- The guest rewinds to an answer that has arrived. -/
  | resuming (value : V) : InStep .rewinding (.resolved value)

theorem inStep_iff {phase : State} {stash : Stash V} :
    InStep phase stash ↔ phase = .normal ∧ stash = .empty ∨
      (∃ o, phase = .unwinding ∧ stash = .pending o) ∨
        ∃ x, phase = .rewinding ∧ stash = .resolved x := by
  constructor
  · rintro (_ | o | x)
    · exact .inl ⟨rfl, rfl⟩
    · exact .inr (.inl ⟨o, rfl, rfl⟩)
    · exact .inr (.inr ⟨x, rfl, rfl⟩)
  · rintro (⟨rfl, rfl⟩ | ⟨o, rfl, rfl⟩ | ⟨x, rfl, rfl⟩)
    · exact .idle
    · exact .suspended o
    · exact .resuming x

/-- Every fault with which an outcome reports a failure satisfies `P`. -/
def Reports {α : Type} (P : Fault → Prop) (outcome : Except Fault α) : Prop :=
  ∀ e, outcome = .error e → P e

/-- Two states that differ neither in the state of the guest nor in the stash. -/
def Faithful.SameGuest (h : Faithful σ V effect) (s s' : σ) : Prop :=
  (h.view s').phase = (h.view s).phase ∧ (h.view s').stash = (h.view s).stash

/-- An export that may do anything but touch the state of the guest and the stash. -/
inductive Body (h : Faithful σ V effect) (R : Type) where
  /-- It returns or fails. -/
  | finish (outcome : Except Fault R)
  /-- It does something of its own and goes on as it finds the state then. -/
  | act (f : σ → σ) (quiet : ∀ s, h.SameGuest s (f s)) (next : σ → Body h R)
  /-- It calls an import, with this as the host's part, and goes on with the outcome. -/
  | call (host : Action σ (HostValue V)) (quiet : ∀ s, h.SameGuest s (host.apply s).2)
      (next : Except Fault (Option V) → Body h R)

/-- What is reported at a point between two steps of the protocol. -/
inductive Report (V R : Type) where
  /-- An import is about to be called. -/
  | calling
  /-- An import has come back. -/
  | answered (outcome : Except Fault (Option V))
  /-- A drive has come back, or has been abandoned. -/
  | left (outcome : Except Fault R)

/-- What is seen of a guest at such a point. -/
structure Sighting (V R : Type) where
  phase : State
  stash : Stash V
  report : Report V R

/-- Every fault that is reported satisfies `P`. -/
def Report.Faults (P : Fault → Prop) : Report V R → Prop
  | calling => True
  | answered outcome => Reports P outcome
  | left outcome => Reports P outcome

/-- One export that is driven, for at most so many rounds: an export that awaits an answer after
that is abandoned. -/
structure Episode (h : Faithful σ V effect) (R : Type) where
  rounds : Nat
  body : Body h R

/-! ## Running -/

variable (h : Faithful σ V effect)

/-- The guest under a log of sightings. -/
abbrev sighted (R : Type) := h.logged fun _ => ([] : List (Sighting V R))

/-- Logs what is seen of the guest. -/
def sight (report : Report V R) : Action (Logged σ (Sighting V R)) Unit := modify fun t =>
  { t with log := t.log ++ [⟨(h.view t.state).phase, (h.view t.state).stash, report⟩] }

variable {h}

/-- Runs an export. -/
def Body.run : Body h R → Action (Logged σ (Sighting V R)) R
  | finish outcome => liftM outcome
  | act f _ next => do
    modify fun t => { t with state := f t.state }
    let t ← get
    (next t.state).run
  | call host _ next => do
    sight h .calling
    let outcome ← ((sighted h R).intercept host.under).attempt
    sight h (.answered outcome)
    (next outcome).run

/-- Every fault that an export and its host raise of their own accord satisfies `P`. -/
def Body.Raises (P : Fault → Prop) : Body h R → Prop
  | finish outcome => Reports P outcome
  | act _ _ next => ∀ s, (next s).Raises P
  | call host _ next =>
    (∀ s, Reports P (host.apply s).1) ∧
      (∀ s o, (host.apply s).1 = .ok (.pending o) → Reports P o) ∧
        ∀ outcome, Reports P outcome → (next outcome).Raises P

variable (h)

/-- Drives an export, or abandons it, and logs the outcome. -/
def Episode.run (e : Episode h R) (t : Logged σ (Sighting V R)) : Logged σ (Sighting V R) :=
  let (outcome, t) := ((sighted h R).drive e.rounds e.body.run).apply t
  ((sight h (.left outcome)).apply t).2

/-- Drives one export after the other. -/
def session (episodes : List (Episode h R)) (t : Logged σ (Sighting V R)) :
    Logged σ (Sighting V R) :=
  episodes.foldl (fun t e => e.run h t) t

/-! ## The invariant -/

/-- A sighting that finds guest and stash in step, reports no fault but those that satisfy `P`, and
finds both at rest when an export has returned. -/
structure Sighting.Sound (P : Fault → Prop) (e : Sighting V R) : Prop where
  inStep : InStep e.phase e.stash
  faults : e.report.Faults P
  atRest : ∀ x, e.report = .left (.ok x) → e.phase = .normal ∧ e.stash = .empty

/-- A view that finds guest and stash in step, and in the log of which every sighting is sound. -/
structure Sound (P : Fault → Prop) (w : View V (ρ × List (Sighting V R))) : Prop where
  inStep : InStep w.phase w.stash
  pending : ∀ o, w.stash = .pending o → Reports P o
  sightings : ∀ e ∈ w.own.2, e.Sound P

/-- A state with a sound view. -/
def SoundAt (P : Fault → Prop) (t : Logged σ (Sighting V R)) : Prop :=
  Sound P ((sighted h R).view t)

section Steps

variable {P : Fault → Prop} {w : View V (ρ × List (Sighting V R))}

theorem Sound.of_idle (hphase : w.phase = .normal) (hstash : w.stash = .empty)
    (hlog : ∀ e ∈ w.own.2, e.Sound P) : Sound P w := by
  refine ⟨inStep_iff.2 (.inl ⟨hphase, hstash⟩), fun o ho => ?_, hlog⟩
  rw [hstash] at ho
  cases ho

theorem logging_snd (c : Command) (x : ρ × List (Sighting V R)) :
    (Faithful.logging (fun _ => []) effect c x).2 = x.2 :=
  List.append_nil x.2

theorem sight_yields (report : Report V R) (w : View V (ρ × List (Sighting V R))) :
    (sight h report).Yields ((sighted h R).At w) ()
      ((sighted h R).At { w with own := (w.own.1, w.own.2 ++ [⟨w.phase, w.stash, report⟩]) }) := by
  rintro t rfl
  exact ⟨rfl, rfl⟩

theorem Sound.sighted (hw : Sound P w) {report : Report V R} (hreport : report.Faults P)
    (hrest : ∀ x, report = .left (.ok x) → w.phase = .normal ∧ w.stash = .empty) :
    Sound P { w with own := (w.own.1, w.own.2 ++ [⟨w.phase, w.stash, report⟩]) } := by
  refine ⟨hw.inStep, hw.pending, fun e he => ?_⟩
  rcases List.mem_append.1 he with he | he
  · exact hw.sightings e he
  · rw [List.mem_singleton.1 he]
    exact ⟨hw.inStep, hreport, hrest⟩

theorem sight_keeps {report : Report V R} (hreport : report.Faults P)
    (hleft : ∀ r, report ≠ .left r) :
    (sight h report).Yields (SoundAt h P) () (SoundAt h P) := by
  intro t ht
  obtain ⟨hr, hview⟩ := sight_yields h report _ t rfl
  refine ⟨hr, ?_⟩
  rw [SoundAt, hview.view_eq]
  exact Sound.sighted ht hreport fun x hx => absurd hx (hleft _)

/-- What the host's part of an import leaves alone. -/
theorem host_sees {host : Action σ (HostValue V)} (hquiet : ∀ s, h.SameGuest s (host.apply s).2)
    (hraises : ∀ s, Reports P (host.apply s).1)
    (hpending : ∀ s o, (host.apply s).1 = .ok (.pending o) → Reports P o) :
    (sighted h R).Sees host.under w fun r u =>
      u.phase = w.phase ∧ u.stash = w.stash ∧ u.own.2 = w.own.2 ∧ Reports P r ∧
        ∀ o, r = .ok (.pending o) → Reports P o := by
  rintro t rfl
  obtain ⟨hphase, hstash⟩ := hquiet t.state
  exact ⟨hphase, hstash, rfl, hraises _, hpending _⟩

/-- An import keeps the invariant, whatever the guest is doing. -/
theorem intercept_keeps (hP : ∀ a b, P (.suspensionState a b)) {host : Action σ (HostValue V)}
    (hquiet : ∀ s, h.SameGuest s (host.apply s).2)
    (hraises : ∀ s, Reports P (host.apply s).1)
    (hpending : ∀ s o, (host.apply s).1 = .ok (.pending o) → Reports P o) :
    ((sighted h R).intercept host.under).Ensures (SoundAt h P)
      fun r t => SoundAt h P t ∧ Reports P r := by
  refine Faithful.ensures_of_sees _ (Q := fun r u => Sound P u ∧ Reports P r) fun w hw => ?_
  rcases inStep_iff.1 hw.inStep with ⟨hphase, hstash⟩ | ⟨o, hphase, hstash⟩ | ⟨x, hphase, hstash⟩
  -- A guest that runs as usual has an empty stash, so a pending answer finds room.
  · refine Faithful.intercept_normal _ hphase (host_sees h hquiet hraises hpending) ?_ ?_ ?_
    · rintro e u ⟨hu, hu', hlog, hr, -⟩
      refine ⟨.of_idle (hu.trans hphase) (hu'.trans hstash) (hlog ▸ hw.sightings), ?_⟩
      rintro e' ⟨⟩
      exact hr e rfl
    · rintro x u ⟨hu, hu', hlog, -, -⟩
      exact ⟨.of_idle (hu.trans hphase) (hu'.trans hstash) (hlog ▸ hw.sightings), nofun⟩
    · rintro o u ⟨-, hu', hlog, -, ho⟩
      refine ⟨hu'.trans hstash, ⟨.suspended o, ?_, ?_⟩, nofun⟩
      · rintro o' ⟨⟩
        exact ho o rfl
      · rw [View.told, logging_snd]
        exact hlog ▸ hw.sightings
  · refine Faithful.sees_of_fails _ (Faithful.intercept_unwinding _ hphase _) ⟨hw, ?_⟩
    rintro e ⟨⟩
    exact hP _ _
  · refine Faithful.sees_of_yields _ (Faithful.intercept_rewinding _ hphase hstash _) ⟨?_, nofun⟩
    exact .of_idle rfl rfl (by rw [logging_snd]; exact hw.sightings)

/-- An export keeps the invariant.  The induction is on the export. -/
theorem Body.run_keeps (hP : ∀ a b, P (.suspensionState a b)) (b : Body h R) (hb : b.Raises P) :
    b.run.Ensures (SoundAt h P)
      fun r t => SoundAt h P t ∧ Reports P r := by
  induction b with
  | finish outcome => exact .liftM fun t ht => ⟨ht, hb⟩
  | act f quiet next ih =>
    have hf : (modify fun t => { t with state := f t.state } :
        Action (Logged σ (Sighting V R)) Unit).Yields (SoundAt h P) () (SoundAt h P) := by
      refine Action.Yields.modify fun t ht => ?_
      obtain ⟨hphase, hstash⟩ := quiet t.state
      exact ⟨hphase ▸ hstash ▸ ht.inStep, hstash ▸ ht.pending, ht.sightings⟩
    rw [run]
    refine hf.ensures_bind (.get_bind fun t ht => ?_)
    exact (ih t.state (hb t.state)).mono (fun t' ht' => ht' ▸ ht) fun _ _ hr => hr
  | call host quiet next ih =>
    obtain ⟨hraises, hpending, hnext⟩ := hb
    have hcalling : (sight h .calling).Yields (SoundAt h P) () (SoundAt h (R := R) P) :=
      sight_keeps h trivial nofun
    rw [run]
    refine hcalling.ensures_bind ?_
    refine (intercept_keeps h hP quiet hraises hpending).attempt_bind fun outcome => ?_
    rintro t ⟨ht, houtcome⟩
    have hanswered : (sight h (.answered outcome)).Yields (SoundAt h P) ()
        (SoundAt h (R := R) P) :=
      sight_keeps h houtcome nofun
    have hnext' : (do sight h (.answered outcome); (next outcome).run).Ensures (SoundAt h P)
        fun r t => SoundAt h P t ∧ Reports P r :=
      hanswered.ensures_bind (ih outcome (hnext outcome houtcome))
    exact hnext' t ht

/-! ## Exports -/

/-- An outcome and the sound view it leaves: an export that succeeds leaves guest and stash at
rest. -/
structure Leaves {α : Type} (P : Fault → Prop) (r : Except Fault α)
    (w : View V (ρ × List (Sighting V R))) : Prop where
  sound : Sound P w
  faults : Reports P r
  atRest : ∀ x, r = .ok x → w.phase = .normal ∧ w.stash = .empty

/-- What is left by an export that has come back, and what is known of the answer it may await. -/
structure Settled (P : Fault → Prop) (r : Except Fault (Drive R V))
    (w : View V (ρ × List (Sighting V R))) : Prop extends Leaves P r w where
  awaited : ∀ o, r = .ok (.awaiting o) → Reports P o

theorem Leaves.of_error {α : Type} {e : Fault} (hw : Sound P w) (he : P e) :
    Leaves P (.error e : Except Fault α) w := by
  refine ⟨hw, ?_, nofun⟩
  rintro _ ⟨⟩
  exact he

theorem Settled.of_error {e : Fault} (hw : Sound P w) (he : P e) :
    Settled P (.error e : Except Fault (Drive R V)) w :=
  ⟨.of_error hw he, nofun⟩

/-- An export that has come back leaves guest and stash at rest, or is at fault. -/
theorem settle_keeps (hP : ∀ a b, P (.suspensionState a b)) (x : R) :
    ((sighted h R).settle x).Ensures (SoundAt h P)
      fun r t => Settled P r ((sighted h R).view t) := by
  refine Faithful.ensures_of_sees _ (Q := fun r u => Settled P r u) fun w hw => ?_
  rcases inStep_iff.1 hw.inStep with ⟨hphase, hstash⟩ | ⟨o, hphase, hstash⟩ | ⟨v, hphase, hstash⟩
  · refine Faithful.sees_of_yields _ (Faithful.settle_normal _ hphase x) ⟨⟨hw, nofun, ?_⟩, nofun⟩
    exact fun _ _ => ⟨hphase, hstash⟩
  · refine Faithful.sees_of_yields _ (Faithful.settle_unwinding _ hphase hstash x) ?_
    refine ⟨⟨.of_idle rfl rfl ?_, nofun, fun _ _ => ⟨rfl, rfl⟩⟩, ?_⟩
    · rw [logging_snd]
      exact hw.sightings
    · rintro o' ⟨⟩
      exact hw.pending o hstash
  · exact Faithful.sees_of_fails _ (Faithful.settle_rewinding _ hphase x) (.of_error hw (hP _ _))

variable {b : Body h R}

/-- An export that is entered, in whatever state, and settled. -/
theorem settled_run_keeps (hP : ∀ a b, P (.suspensionState a b)) (hb : b.Raises P) :
    (b.run >>= (sighted h R).settle).Ensures (SoundAt h P)
      fun r t => Settled P r ((sighted h R).view t) := by
  refine (b.run_keeps h hP hb).bind (fun x => ?_) fun e t ht => .of_error ht.1 (ht.2 e rfl)
  exact (settle_keeps h hP x).mono (fun _ ht => ht.1) fun _ _ hr => hr

theorem begin_keeps (hP : ∀ a b, P (.suspensionState a b)) (hb : b.Raises P) :
    ((sighted h R).begin b.run).Ensures (SoundAt h P)
      fun r t => Settled P r ((sighted h R).view t) := by
  refine Faithful.ensures_of_sees _ (Q := fun r u => Settled P r u) fun w hw => ?_
  by_cases hphase : w.phase = .normal
  · refine (Faithful.begin_normal _ hphase).ensures ?_
    exact (settled_run_keeps h hP hb).mono (fun t ht => by rw [SoundAt, ht.view_eq]; exact hw)
      fun _ _ hr => hr
  · exact Faithful.sees_of_fails _ (Faithful.begin_fails _ hphase) (.of_error hw (hP _ _))

/-- An answer that has arrived takes the guest at rest back in; one that has not is the failure of
the export. -/
theorem resume_keeps (hP : ∀ a b, P (.suspensionState a b)) (hb : b.Raises P)
    (o : Except Fault V) :
    ((sighted h R).resume b.run o).Ensures
      (fun t => Settled (R := R) P (.ok (.awaiting o)) ((sighted h R).view t))
      fun r t => Settled P r ((sighted h R).view t) := by
  refine Faithful.ensures_of_sees _ (P := fun u => Settled (R := R) P (.ok (.awaiting o)) u)
    (Q := fun r u => Settled P r u) fun w hw => ?_
  obtain ⟨hphase, -⟩ := hw.atRest _ rfl
  cases o with
  | ok v =>
    refine (Faithful.resume_ok _ hphase).ensures ?_
    refine (settled_run_keeps h hP hb).mono (fun t ht => ?_) fun _ _ hr => hr
    rw [SoundAt, ht.view_eq]
    refine ⟨.resuming v, nofun, ?_⟩
    rw [logging_snd]
    exact hw.sound.sightings
  | error e =>
    exact Faithful.sees_of_fails _ (Faithful.resume_error _ e)
      (.of_error hw.sound (hw.awaited _ rfl e rfl))

/-- Following an export keeps the invariant, however many rounds it takes and also when it is
abandoned.  The induction is on the rounds. -/
theorem follow_keeps (hP : ∀ a b, P (.suspensionState a b)) (hfuel : P (.trap .outOfFuel))
    (hb : b.Raises P) (rounds : Nat) (d : Drive R V) :
    ((sighted h R).follow b.run rounds d).Ensures
      (fun t => Settled P (.ok d) ((sighted h R).view t))
      fun r t => Leaves P r ((sighted h R).view t) := by
  induction rounds generalizing d with
  | zero =>
    cases d with
    | finished x =>
      exact .pure fun t ht => ⟨ht.sound, nofun, fun _ _ => ht.atRest _ rfl⟩
    | awaiting o => exact .throw fun t ht => .of_error ht.sound hfuel
  | succ rounds ih =>
    cases d with
    | finished x =>
      exact .pure fun t ht => ⟨ht.sound, nofun, fun _ _ => ht.atRest _ rfl⟩
    | awaiting o =>
      rw [Protocol.follow]
      exact (resume_keeps h hP hb o).bind ih fun e t ht => .of_error ht.sound (ht.faults e rfl)

theorem drive_keeps (hP : ∀ a b, P (.suspensionState a b)) (hfuel : P (.trap .outOfFuel))
    (hb : b.Raises P) (rounds : Nat) :
    ((sighted h R).drive rounds b.run).Ensures (SoundAt h P)
      fun r t => Leaves P r ((sighted h R).view t) :=
  (begin_keeps h hP hb).bind (follow_keeps h hP hfuel hb rounds) fun e _ ht =>
    .of_error ht.sound (ht.faults e rfl)

/-! ## Sessions -/

theorem Episode.run_keeps (hP : ∀ a b, P (.suspensionState a b)) (hfuel : P (.trap .outOfFuel))
    {e : Episode h R} (he : e.body.Raises P) {t : Logged σ (Sighting V R)} (ht : SoundAt h P t) :
    SoundAt h P (e.run h t) := by
  have hleaves := drive_keeps h hP hfuel he e.rounds t ht
  unfold Episode.run
  obtain ⟨-, hview⟩ := sight_yields h
    (.left (((sighted h R).drive e.rounds e.body.run).apply t).1) _ _ rfl
  rw [SoundAt, hview.view_eq]
  refine hleaves.sound.sighted hleaves.faults fun x hx => ?_
  exact hleaves.atRest x (Report.left.inj hx)

theorem session_keeps (hP : ∀ a b, P (.suspensionState a b)) (hfuel : P (.trap .outOfFuel))
    (episodes : List (Episode h R)) (hraises : ∀ e ∈ episodes, e.body.Raises P)
    {t : Logged σ (Sighting V R)} (ht : SoundAt h P t) : SoundAt h P (session h episodes t) := by
  induction episodes generalizing t with
  | nil => exact ht
  | cons e rest ih =>
    refine ih (fun e' he' => hraises e' (List.mem_cons_of_mem e he')) ?_
    exact e.run_keeps h hP hfuel (hraises e List.mem_cons_self) ht

end Steps

theorem Body.raises_true (b : Body h R) : b.Raises fun _ => True := by
  induction b with
  | finish outcome => exact fun _ _ => trivial
  | act f quiet next ih => exact ih
  | call host quiet next ih =>
    exact ⟨fun _ _ _ => trivial, fun _ _ _ _ _ => trivial, fun o _ => ih o⟩

/-- Guest and stash stay in step.  Any exports that leave both alone are driven one after the other,
each until it ends or is abandoned, from a guest that runs as usual with no answer on its way.  Then
guest and stash are in step before and after each import, after each export, and in the end; they
are at rest after each export that returns; and the stash refuses nobody: a fault of the stash is
reported only if an export or its host makes it up. -/
theorem inStep_session (episodes : List (Episode h R)) (s : σ)
    (hphase : (h.view s).phase = .normal) (hstash : (h.view s).stash = .empty) :
    let t := session h episodes ⟨s, []⟩
    InStep (h.view t.state).phase (h.view t.state).stash ∧
      (∀ e ∈ t.log, InStep e.phase e.stash) ∧
      (∀ e ∈ t.log, ∀ x, e.report = .left (.ok x) → e.phase = .normal ∧ e.stash = .empty) ∧
      ((∀ e ∈ episodes, e.body.Raises (¬ ·.OfStash)) →
        ∀ e ∈ t.log, e.report.Faults (¬ ·.OfStash)) := by
  intro t
  have hstart (P : Fault → Prop) : SoundAt (R := R) h P ⟨s, []⟩ :=
    .of_idle hphase hstash fun _ he => absurd he List.not_mem_nil
  have hsound : SoundAt h (fun _ => True) t :=
    session_keeps h (fun _ _ => trivial) trivial episodes (fun e _ => e.body.raises_true h)
      (hstart _)
  refine ⟨hsound.inStep, fun e he => (hsound.sightings e he).inStep,
    fun e he => (hsound.sightings e he).atRest, fun hraises e he => ?_⟩
  have hstate (a b : State) : ¬ (Fault.suspensionState a b).OfStash := by
    rintro (h | h | h) <;> cases h
  have hfuel : ¬ (Fault.trap .outOfFuel).OfStash := by
    rintro (h | h | h) <;> cases h
  have hfaults : SoundAt h (¬ ·.OfStash) t :=
    session_keeps h hstate hfuel episodes hraises (hstart _)
  exact (hfaults.sightings e he).faults

def heedlessHost : Faithful (View Nat Unit) Nat fun _ => (id : Unit → Unit) := .plain 16 _

/-- An export that calls a second import although it was told to unwind, and returns whatever the
imports say. -/
def heedless : Body heedlessHost Nat :=
  .call (pure (.pending (.ok 7))) (fun _ => ⟨rfl, rfl⟩) fun _ =>
    .call (pure (.ready 3)) (fun _ => ⟨rfl, rfl⟩) fun outcome =>
      .finish (.ok (if outcome.isOk then 1 else 0))

/-- The heedless export is driven to its end, abandoned while it awaits the answer, and driven to
its end once more. -/
def heedlessEpisodes : List (Episode heedlessHost Nat) :=
  [⟨1, heedless⟩, ⟨0, heedless⟩, ⟨1, heedless⟩]

theorem inStep_session_heedless :
    let t := session heedlessHost heedlessEpisodes ⟨⟨.normal, .empty, ()⟩, []⟩
    t.log.length = 23 ∧
      InStep (heedlessHost.view t.state).phase (heedlessHost.view t.state).stash ∧
      (∀ e ∈ t.log, InStep e.phase e.stash) ∧
      (∀ e ∈ t.log, ∀ x, e.report = .left (.ok x) → e.phase = .normal ∧ e.stash = .empty) ∧
      ∀ e ∈ t.log, e.report.Faults (¬ ·.OfStash) := by
  have hraises : ∀ e ∈ heedlessEpisodes, e.body.Raises (¬ ·.OfStash) := by
    simp [heedlessEpisodes, heedless, Body.Raises, Reports]
  have hsession := inStep_session heedlessHost heedlessEpisodes ⟨.normal, .empty, ()⟩ rfl rfl
  obtain ⟨hend, hsteps, hrest, hfaults⟩ := hsession
  exact ⟨by decide +kernel, hend, hsteps, hrest, hfaults hraises⟩

end Suspension

end GuestHost
