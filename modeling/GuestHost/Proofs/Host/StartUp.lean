import GuestHost.Proofs.Host.Interception
import GuestHost.Proofs.Host.Watched

/-!
# Starting up

What can be done with an instance from outside is to start it as a command, to set it up as a
reactor, and to call its exports.  A `session` does such things one after the other under a watch,
and `Step.Does` says what one of them does.  Of all starts and set-ups only the first does anything,
a command that was entered leaves drained outputs, and it is reported to have exited if and only if
it asked to be ended and was: `session_startsOnce`.
-/

namespace GuestHost

/-- Starting the instance goes into its command. -/
def Instance.Enters (i : Instance) : Prop :=
  i.started = false ∧ (i.code.function? commandEntry).isSome ∧
    (i.code.export? reactorEntry).isNone

namespace Watch

variable {α : Type} {calm : Prop} {w : Watch} {c : Config} {m : Wasm.Module} {imports : ImportSet}
  {streams : Table.StandardStreams} {i : Instance}

/-! ## Setting up -/

theorem mem_imported {asked : List (ImportKey × Wasm.ImportType)} {origin : Origin}
    (h : origin ∈ imported imports asked) : ∃ key type, origin = Origin.of imports key type := by
  induction asked with
  | nil => cases h
  | cons one asked ih =>
    rcases one with ⟨key, type | limits⟩
    · rcases List.mem_cons.1 h with rfl | h
      · exact ⟨key, type, rfl⟩
      · exact ih h
    · exact ih h

theorem Origin.calm_of (hcalm : ∀ i ∈ imports.entries, i.Calm) (key : ImportKey)
    (type : Wasm.FunctionType) : (Origin.of imports key type).Calm := by
  unfold Origin.of
  split
  · trivial
  · split
    · trivial
    · split
      · next i hi => exact hcalm i (List.mem_of_find?_eq_some hi)
      · trivial

theorem trusts_of (imports : ImportSet) (i : Instance) :
    (of imports i).Trusts (∀ i ∈ imports.entries, i.Calm) := by
  intro origin horigin hcalm
  have hmem : origin ∈ imported imports i.code.imports := by simpa [of] using horigin
  obtain ⟨key, type, rfl⟩ := mem_imported hmem
  exact Origin.calm_of hcalm key type

/-- An instance whose host hands over the arguments of a configuration, and its variables joined by
a sign of equality. -/
structure HandsOver (c : Config) (i : Instance) : Prop where
  args : i.wasi.args = .ofTexts c.args
  env : i.wasi.env = .ofTexts (c.env.map Wasi.envEntry)

/-- A module that was just linked awaits no answer and was neither started nor ended. -/
theorem link_fresh (h : Instance.link c m imports streams = .ok i) :
    i.store.host.stash = .empty ∧ i.started = false ∧ i.wasi.returnOnExit = c.returnOnExit ∧
      i.exitCode = none ∧ HandsOver c i := by
  unfold Instance.link at h
  obtain ⟨wasi, hwasi, h⟩ := bind_eq_ok h
  obtain ⟨ds, -, h⟩ := bind_eq_ok h
  obtain ⟨fs, -, h⟩ := bind_eq_ok h
  obtain ⟨memory, -, h⟩ := bind_eq_ok h
  cases h
  unfold Wasi.ofConfig at hwasi
  split at hwasi
  · cases hwasi
  · cases hwasi
    exact ⟨rfl, rfl, rfl, rfl, rfl, rfl⟩

/-- The start function may ask for the guest to be ended, which then is not set up. -/
theorem runStart_follows (hi : w.On calm i) :
    Follows (i.runStart w.invoke) (i.runStart i.invoke) i.store fun events _ s =>
      Recounts calm i.store.host events s.host := by
  unfold Instance.runStart
  cases i.code.start with
  | none => exact .pure (.nothing hi.sound rfl)
  | some function =>
    intro log
    obtain ⟨events, hb, htells, -⟩ := invoke_shadows hi function [] i.store hi.sound log
    refine ⟨events, ?_, ?_⟩
    · simp only [Action.apply_of, hb]
      rcases (i.invoke function []).apply i.store with ⟨_ | _, s⟩ <;> rfl
    · simp only [Action.apply_of]
      rcases hrun : (i.invoke function []).apply i.store with ⟨_ | _, s⟩
      all_goals
        rw [hrun] at htells
        exact htells.toRecounts

theorem recounts_attach {h : Host} {events : List Event} {s s' : Host.Store}
    (hrecounts : Recounts calm h events s.host) (hattach : i.attach.apply s = (.ok (), s')) :
    Recounts calm h events s'.host := by
  rcases Instance.apply_attach hattach with ⟨-, rfl⟩ | ⟨controls, -, -, hhost⟩
  · exact hrecounts
  · rw [hhost]
    exact ⟨hrecounts.sound, hrecounts.returnOnExit, hrecounts.exitCode,
      hrecounts.args, hrecounts.env, hrecounts.answers⟩

theorem setUp_follows (hi : w.On calm i) :
    Follows (i.setUp .logged w.invoke) (i.setUp .whole i.invoke) i.store fun events r s =>
      Answers i.wasi.args i.wasi.env events ∧
        (r = .ok () → Recounts calm i.store.host events s.host) := by
  refine (runStart_follows hi).bind (fun events _ s hrecounts => .under ?_)
    fun _ _ _ hrecounts => ⟨hrecounts.answers, nofun⟩
  rw [List.append_nil]
  exact ⟨hrecounts.answers, fun hattach => recounts_attach hrecounts (Prod.ext hattach rfl)⟩

/-- What has just been linked is what its watch is on. -/
theorem on_of_link (h : Instance.link c m imports streams = .ok i) :
    (of imports i).On (∀ i ∈ imports.entries, i.Calm) i where
  environment := environment_of_link h
  trusts := trusts_of imports i
  sound o ho := by
    rw [(link_fresh h).1] at ho
    cases ho

/-- A module is set up under a watch as it is without. -/
theorem create_fst (c : Config) (m : Wasm.Module) (imports : ImportSet)
    (streams : Table.StandardStreams) :
    (create c m imports streams).1 = Instance.create c m imports streams := by
  rw [create, Instance.create]
  cases hlink : Instance.link c m imports streams with
  | error cause => rfl
  | ok i =>
    obtain ⟨events, hb, -⟩ := setUp_follows (on_of_link hlink) []
    simp only [hb]
    rcases (i.setUp .whole i.invoke).apply i.store with ⟨_ | _, s⟩ <;> rfl

/-- A module that is set up gets the strings of its configuration, whether this succeeds or not. -/
theorem create_answers (c : Config) (m : Wasm.Module) (imports : ImportSet)
    (streams : Table.StandardStreams) :
    Answers (.ofTexts c.args) (.ofTexts (c.env.map Wasi.envEntry))
      (create c m imports streams).2 := by
  rw [create]
  cases hlink : Instance.link c m imports streams with
  | error cause => exact fun _ _ _ _ hmem => absurd hmem List.not_mem_nil
  | ok i =>
    obtain ⟨-, -, -, -, hargs, henv⟩ := link_fresh hlink
    obtain ⟨events, hb, hanswers, -⟩ := setUp_follows (on_of_link hlink) []
    rw [hargs, henv] at hanswers
    simp only [hb]
    rcases (i.setUp .whole i.invoke).apply i.store with ⟨_ | _, s⟩ <;>
      exact hanswers

/-- What the watch on a new instance is on, and what was written down about its start function. -/
theorem created (h : Instance.create c m imports streams = .ok i) :
    (of imports i).On (∀ i ∈ imports.entries, i.Calm) i ∧ i.started = false ∧
      i.wasi.returnOnExit = c.returnOnExit ∧
      i.exitCode = lastCode none (create c m imports streams).2 ∧ HandsOver c i := by
  rw [Instance.create] at h
  rw [create]
  cases hlink : Instance.link c m imports streams with
  | error cause =>
    rw [hlink] at h
    cases h
  | ok i₀ =>
    have hon := on_of_link hlink
    obtain ⟨-, hstarted, hreturn, hexit, hargs, henv⟩ := link_fresh hlink
    obtain ⟨events, hb, -, hrecounts⟩ := setUp_follows hon []
    rw [hlink] at h
    simp only [hb]
    dsimp only at h
    generalize (i₀.setUp .whole i₀.invoke).apply i₀.store = setUp at *
    obtain ⟨_ | _, s⟩ := setUp
    · cases h
    · cases h
      have hrecounts := hrecounts rfl
      refine ⟨⟨hon.environment, hon.trusts, hrecounts.sound⟩, hstarted,
        hrecounts.returnOnExit.trans hreturn, ?_, hrecounts.args.trans hargs,
        hrecounts.env.trans henv⟩
      change s.host.wasi.exitCode = _
      rw [hrecounts.exitCode]
      exact congrArg (lastCode · events) hexit

/-! ## Commands -/

/-- How a command ended, if its entry ended in the given way. -/
def outcome : Except Fault (List Wasm.Value) → Except Fault Outcome
  | .ok _ => .ok .returned
  | .error (.exit code) => .ok (.exited code)
  | .error f => .error f

theorem outcome_eq_exited_iff (r : Except Fault (List Wasm.Value)) (code : Int32) :
    outcome r = .ok (.exited code) ↔ r = .error (.exit code) := by
  constructor
  · intro h
    rcases r with f | values
    · cases f <;> cases h
      rfl
    · cases h
  · rintro rfl
    rfl

theorem apply_runCommand (i : Instance) :
    Instance.Manner.plain.runCommand.apply i =
      (outcome ((Instance.call commandEntry []).apply i).1,
        ((Instance.call commandEntry []).apply i).2.flush) := rfl

/-- A command is reported to have exited if and only if it asked to be ended and was, and then this
is the last that was written down about it. -/
structure ReportsExit (calm : Prop) (h : Host) (events : List Event) (r : Except Fault Outcome) :
    Prop where
  exited_iff : calm → ∀ code, r = .ok (.exited code) ↔
    h.wasi.returnOnExit = true ∧ .exit code ∈ events
  last : calm → ∀ code, r = .ok (.exited code) →
    ∃ before, events = before ++ [.exit code] ∧ codes before = []

/-- The end of a command that was entered. -/
structure Ended (calm : Prop) (i : Instance) (events : List Event) (r : Except Fault Outcome)
    (i' : Instance) : Prop extends ReportsExit calm i.store.host events r where
  frame : i' = { i with store := i'.store }
  recounts : Recounts calm i.store.host events i'.store.host
  drained : i'.Drained

theorem Tells.reportsExit {r : Except Fault (List Wasm.Value)} {events : List Event} {h h' : Host}
    (htells : Tells calm h events r h') : ReportsExit calm h events (outcome r) where
  exited_iff hcalm code := (outcome_eq_exited_iff r code).trans (htells.eq_exit_iff hcalm code)
  last hcalm code hr := (htells.ended hcalm code ((outcome_eq_exited_iff r code).1 hr)).2

theorem runCommand_follows (hi : w.On calm i) :
    Follows w.exports.runCommand Instance.Manner.plain.runCommand i (Ended calm i) := by
  intro log
  obtain ⟨events, hb, hframe, htells⟩ := call_follows hi commandEntry [] log
  rw [apply_runCommand]
  refine ⟨events, by rw [Instance.Manner.runCommand, Action.apply_of, hb]; rfl, ?_⟩
  generalize (Instance.call commandEntry []).apply i = called at hframe htells ⊢
  obtain ⟨r, i'⟩ := called
  dsimp only at hframe htells ⊢
  exact ⟨htells.reportsExit, by rw [hframe]; rfl,
    ⟨htells.sound, htells.returnOnExit, htells.exitCode, htells.args, htells.env,
      htells.answers⟩, Instance.flush_drained i'⟩

/-! ## Start-ups -/

/-- What a start-up does, as a command or as a reactor. -/
structure StartsUp (calm : Prop) (i : Instance) (events : List Event) (r : Except Fault α)
    (i' : Instance) : Prop where
  frame : i' = { i with started := true, store := i'.store }
  recounts : Recounts calm i.store.host events i'.store.host
  again : i.started = true → r = .error .alreadyStarted ∧ i' = i ∧ events = []

/-- What a start does. -/
structure Starts (calm : Prop) (i : Instance) (events : List Event) (r : Except Fault Outcome)
    (i' : Instance) : Prop
    extends StartsUp calm i events r i', ReportsExit calm i.store.host events r where
  idle : ¬ i.Enters → events = [] ∧ i'.store = i.store
  drained : i.Enters → i'.Drained

theorem apply_markStarted (i : Instance) :
    Instance.markStarted.apply i =
      if i.started then (.error .alreadyStarted, i) else (.ok (), { i with started := true }) := by
  simp only [Instance.markStarted, Action.apply_bind, Action.apply_get]
  cases i.started <;> rfl

theorem markStarted_follows (i : Instance) :
    Follows Instance.markStarted.under Instance.markStarted i fun events r i' => events = [] ∧
      (i.started = true ∧ r = .error .alreadyStarted ∧ i' = i ∨
        i.started = false ∧ r = .ok () ∧ i' = { i with started := true }) := by
  refine .under ⟨rfl, ?_⟩
  rw [apply_markStarted]
  cases i.started with
  | true => exact .inl ⟨rfl, rfl, rfl⟩
  | false => exact .inr ⟨rfl, rfl, rfl⟩

theorem eq_markStarted (h : i.started = true) :
    i = { i with started := true, store := i.store } := by
  rw [← h]

theorem On.marked (hi : w.On calm i) : w.On calm { i with started := true } :=
  ⟨hi.environment, hi.trusts, hi.sound⟩

theorem StartsUp.on {r : Except Fault α} {events : List Event} {i' : Instance}
    (h : StartsUp calm i events r i') (hi : w.On calm i) : w.On calm i' := by
  refine ⟨?_, hi.trusts, h.recounts.sound⟩
  rw [h.frame]
  exact hi.environment

theorem StartsUp.again_of_started (hi : w.On calm i) (hstarted : i.started = true) :
    StartsUp calm i [] (.error .alreadyStarted : Except Fault α) i where
  frame := eq_markStarted hstarted
  recounts := .nothing hi.sound rfl
  again _ := ⟨rfl, rfl, rfl⟩

/-- A start-up that does not go into the guest. -/
theorem StartsUp.refused (hi : w.On calm i) (hstarted : i.started = false) (r : Except Fault α) :
    StartsUp calm i [] r { i with started := true } where
  frame := rfl
  recounts := .nothing hi.sound rfl
  again h := absurd (hstarted.symm.trans h) Bool.false_ne_true

theorem Starts.refused {f : Fault} {i' : Instance}
    (h : StartsUp calm i [] (.error f : Except Fault Outcome) i') (hstore : i'.store = i.store)
    (hnot : ¬ i.Enters) : Starts calm i [] (.error f) i' where
  toStartsUp := h
  exited_iff _ _ := ⟨nofun, fun h => nomatch h.2⟩
  last _ _ := nofun
  idle _ := ⟨rfl, hstore⟩
  drained h := absurd h hnot

theorem start_follows (hi : w.On calm i) :
    Follows w.exports.start Instance.start i (Starts calm i) := by
  -- The instance is marked before its exports are looked at, so a start that is refused counts too.
  refine (markStarted_follows i).bind ?_ ?_
  · rintro _ ⟨⟩ _ ⟨rfl, ⟨-, ⟨⟩, -⟩ | ⟨hstarted, -, rfl⟩⟩
    refine .get_bind fun t ht => ?_
    dsimp only
    rw [ht]
    split
    · next hentry =>
      have hmissing : i.code.function? commandEntry = none := Option.isNone_iff_eq_none.1 hentry
      refine .throw (.refused (.refused hi hstarted _) rfl fun henters => ?_)
      simp [Instance.Enters, hmissing] at henters
    · next hentry =>
      split
      · next hreactor =>
        refine .throw (.refused (.refused hi hstarted _) rfl fun henters => ?_)
        rw [Option.isNone_iff_eq_none.1 henters.2.2] at hreactor
        cases hreactor
      · next hreactor =>
        have henters : i.Enters :=
          ⟨hstarted, Option.isNone_eq_false_iff.1 (Bool.eq_false_iff.2 hentry),
            Option.isSome_eq_false_iff.1 (Bool.eq_false_iff.2 hreactor)⟩
        refine (runCommand_follows hi.marked).mono fun events r i' hended => ?_
        exact ⟨⟨hended.frame, hended.recounts, fun h => nomatch hstarted.symm.trans h⟩,
          hended.toReportsExit, fun hnot => absurd henters hnot, fun _ => hended.drained⟩
  · rintro _ _ _ ⟨rfl, ⟨hstarted, ⟨⟩, rfl⟩ | ⟨-, ⟨⟩, -⟩⟩
    refine .refused (.again_of_started hi hstarted) rfl fun henters => ?_
    exact Bool.false_ne_true (henters.1.symm.trans hstarted)

theorem begin_follows (hi : w.On calm i) :
    Follows w.exports.begin Instance.begin i (StartsUp calm i) := by
  refine (markStarted_follows i).bind ?_ ?_
  · rintro _ ⟨⟩ _ ⟨rfl, ⟨-, ⟨⟩, -⟩ | ⟨hstarted, -, rfl⟩⟩
    refine .get_bind fun t ht => ?_
    dsimp only
    rw [ht]
    split
    · exact .throw (.refused hi hstarted _)
    · split
      · intro log
        obtain ⟨events, hb, hleaves⟩ := call_follows hi.marked reactorEntry [] log
        rw [Action.apply_discard, Action.apply_discard, hb]
        exact ⟨events, rfl, hleaves.frame, hleaves.tells.toRecounts,
          fun h => nomatch hstarted.symm.trans h⟩
      · exact .pure (.refused hi hstarted _)
  · rintro _ _ _ ⟨rfl, ⟨hstarted, ⟨⟩, rfl⟩ | ⟨-, ⟨⟩, -⟩⟩
    exact .again_of_started hi hstarted

/-! ## Sessions -/

/-- What can be done with an instance from outside. -/
inductive Op where
  | start
  | begin
  | call (name : String) (args : List Wasm.Value)

/-- What it gives back. -/
inductive Reply where
  | outcome (o : Outcome)
  | ready
  | results (values : List Wasm.Value)

namespace Op

/-- Whether the instance must not have been started before. -/
def startsUp : Op → Bool
  | start | begin => true
  | call .. => false

/-- Does it with exports that run in the given manner. -/
def run {Θ τ : Type} (k : Instance.Manner Θ τ) : Op → Action Θ Reply
  | start => do pure (.outcome (← k.start))
  | begin => do
    k.begin
    pure .ready
  | call name args => do pure (.results (← k.call name args))

end Op

/-- One thing that was done with an instance, and what was written down about the guest. -/
structure Step where
  op : Op
  before : Instance
  reply : Except Fault Reply
  events : List Event
  after : Instance

/-- Does it under a watch. -/
def Op.step (w : Watch) (op : Op) (i : Instance) : Step :=
  let (reply, t) := (op.run w.exports).apply ⟨i, []⟩
  ⟨op, i, reply, t.log, t.state⟩

/-- Does one thing after the other. -/
def session (w : Watch) : Instance → List Op → List Step
  | _, [] => []
  | i, op :: ops => op.step w i :: session w (op.step w i).after ops

namespace Step

/-- The instance was started, and the reply is that its command exited. -/
def Exited (step : Step) (code : Int32) : Prop :=
  step.op = .start ∧ step.reply = .ok (.outcome (.exited code))

/-- What one step does. -/
structure Does (calm : Prop) (step : Step) : Prop where
  watched : (step.op.run .plain).apply step.before = (step.reply, step.after)
  frame : step.after =
    { step.before with
      started := step.before.started || step.op.startsUp, store := step.after.store }
  recounts : Recounts calm step.before.store.host step.events step.after.store.host
  again : step.op.startsUp = true → step.before.started = true →
    step.reply = .error .alreadyStarted ∧ step.after = step.before ∧ step.events = []
  idle : step.op = .start → ¬ step.before.Enters →
    step.events = [] ∧ step.after.store = step.before.store
  drained : step.op = .start → step.before.Enters → step.after.Drained
  exited_iff : calm → ∀ code, step.Exited code ↔
    step.op = .start ∧ step.before.wasi.returnOnExit = true ∧ .exit code ∈ step.events
  last : calm → ∀ code, step.Exited code →
    ∃ before, step.events = before ++ [.exit code] ∧ codes before = []

end Step

theorem follows_map {σ β : Type} {b : Action (Logged σ Event) α} {a : Action σ α} {s : σ}
    {T : List Event → Except Fault α → σ → Prop} (h : Follows b a s T) (f : α → β) :
    Follows (do pure (f (← b))) (do pure (f (← a))) s fun events r s' =>
      ∃ r', r = r'.map f ∧ T events r' s' := by
  refine h.bind (fun events x s' hT => .pure ⟨.ok x, rfl, ?_⟩) fun events e s' hT =>
    ⟨.error e, rfl, hT⟩
  rw [List.append_nil]
  exact hT

theorem Op.step_eq (op : Op) {T : List Event → Except Fault Reply → Instance → Prop}
    (h : Follows (op.run w.exports) (op.run .plain) i T) :
    ∃ events, op.step w i =
        ⟨op, i, ((op.run .plain).apply i).1, events, ((op.run .plain).apply i).2⟩ ∧
      T events ((op.run .plain).apply i).1 ((op.run .plain).apply i).2 := by
  obtain ⟨events, hb, hT⟩ := h []
  exact ⟨events, by rw [step, hb]; rfl, hT⟩

theorem map_eq_exited_iff {r : Except Fault Outcome} {code : Int32} :
    r.map Reply.outcome = .ok (.outcome (.exited code)) ↔ r = .ok (.exited code) := by
  cases r with
  | error f => exact ⟨nofun, nofun⟩
  | ok o => simp [Except.map]

/-- The step lemma: whatever is done with an instance, its watch stays on it. -/
theorem Op.step_does (hi : w.On calm i) (op : Op) : (op.step w i).Does calm := by
  cases op with
  | start =>
    obtain ⟨events, hstep, r, hr, hstarts⟩ := Op.step_eq .start (follows_map (start_follows hi) _)
    rw [hstep]
    refine ⟨rfl, ?_, hstarts.recounts, fun _ hagain => ?_, fun _ => hstarts.idle,
      fun _ => hstarts.drained, fun hcalm code => ?_, fun hcalm code hexited => ?_⟩
    · rw [startsUp, Bool.or_true]
      exact hstarts.frame
    · obtain ⟨rfl, hsame, hnothing⟩ := hstarts.again hagain
      exact ⟨hr, hsame, hnothing⟩
    · simp only [Step.Exited, hr, map_eq_exited_iff, true_and]
      exact hstarts.exited_iff hcalm code
    · refine hstarts.last hcalm code (map_eq_exited_iff.1 ?_)
      rw [← hr]
      exact hexited.2
  | begin =>
    obtain ⟨events, hstep, r, hr, hstarts⟩ :=
      Op.step_eq .begin (follows_map (begin_follows hi) fun _ => Reply.ready)
    rw [hstep]
    refine ⟨rfl, ?_, hstarts.recounts, fun _ hagain => ?_, nofun, nofun,
      fun _ _ => ⟨(nomatch ·.1), (nomatch ·.1)⟩, fun _ _ h => nomatch h.1⟩
    · rw [startsUp, Bool.or_true]
      exact hstarts.frame
    · obtain ⟨rfl, hsame, hnothing⟩ := hstarts.again hagain
      exact ⟨hr, hsame, hnothing⟩
  | call name args =>
    obtain ⟨events, hstep, r, hr, hleaves⟩ :=
      Op.step_eq (.call name args) (follows_map (call_follows hi name args) _)
    rw [hstep]
    refine ⟨rfl, ?_, hleaves.tells.toRecounts, nofun, nofun, nofun,
      fun _ _ => ⟨(nomatch ·.1), (nomatch ·.1)⟩, fun _ _ h => nomatch h.1⟩
    rw [startsUp, Bool.or_false]
    exact hleaves.frame

theorem Step.Does.on {step : Step} (h : step.Does calm) (hi : w.On calm step.before) :
    w.On calm step.after := by
  refine ⟨?_, hi.trusts, h.recounts.sound⟩
  rw [h.frame]
  exact hi.environment

/-- Where a session has got to before one of its steps. -/
structure Reaches (calm : Prop) (w : Watch) (i : Instance) (earlier : List Step) (step : Step) :
    Prop where
  on : w.On calm step.before
  does : step.Does calm
  started : step.before.started = (i.started || earlier.any fun s => s.op.startsUp)
  returnOnExit : step.before.wasi.returnOnExit = i.wasi.returnOnExit
  exitCode : step.before.exitCode = lastCode i.exitCode (earlier.flatMap Step.events)

/-- The run lemma, by induction on the steps that came before. -/
theorem session_reaches (hi : w.On calm i) {ops : List Op} {earlier later : List Step} {step : Step}
    (h : session w i ops = earlier ++ step :: later) : Reaches calm w i earlier step := by
  induction earlier generalizing i ops with
  | nil =>
    cases ops with
    | nil => cases h
    | cons op ops =>
      obtain ⟨rfl, -⟩ := List.cons.inj h
      exact ⟨hi, op.step_does hi, (Bool.or_false _).symm, rfl, rfl⟩
  | cons first earlier ih =>
    cases ops with
    | nil => cases h
    | cons op ops =>
      obtain ⟨rfl, hrest⟩ := List.cons.inj h
      have hdoes := op.step_does hi
      have hreaches := ih (hdoes.on hi) hrest
      refine ⟨hreaches.on, hreaches.does, ?_, ?_, ?_⟩
      · rw [hreaches.started, hdoes.frame, List.any_cons, Bool.or_assoc]
        rfl
      · exact hreaches.returnOnExit.trans hdoes.recounts.returnOnExit
      · rw [hreaches.exitCode, List.flatMap_cons, lastCode_append]
        exact congrArg (lastCode · _) hdoes.recounts.exitCode

/-- What the convention for commands and reactors asks of a step after some others, in a session
with an instance about whose making something was written down, too. -/
structure StartsOnce (c : Config) (imports : ImportSet) (made : List Event) (earlier : List Step)
    (step : Step) : Prop where
  /-- A watch changes nothing. -/
  watched : (step.op.run .plain).apply step.before = (step.reply, step.after)
  /-- Nothing comes of a second start-up, whatever came of the first. -/
  again : step.op.startsUp = true → (earlier.any fun s => s.op.startsUp) = true →
    step.reply = .error .alreadyStarted ∧ step.after = step.before ∧ step.events = []
  idle : step.op = .start → ¬ step.before.Enters →
    step.events = [] ∧ step.after.store = step.before.store
  drained : step.op = .start → step.before.Enters → step.after.Drained
  exited_iff : (∀ i ∈ imports.entries, i.Calm) → ∀ code, step.Exited code ↔
    step.op = .start ∧ c.returnOnExit = true ∧ .exit code ∈ step.events
  /-- Nothing of the guest runs after a request that was granted. -/
  last : (∀ i ∈ imports.entries, i.Calm) → ∀ code, step.Exited code →
    (∃ before, step.events = before ++ [.exit code] ∧ codes before = []) ∧
      step.after.exitCode = some code
  exitCode : step.after.exitCode = lastCode none (made ++ (earlier ++ [step]).flatMap Step.events)

/-- However an instance is used, only its first start-up does anything, a command that was entered
leaves drained outputs, it has exited if and only if it asked to be ended and was, and the exit code
is that of the last request. -/
theorem session_startsOnce (h : Instance.create c m imports streams = .ok i) (ops : List Op) :
    (create c m imports streams).1 = .ok i ∧
      i.exitCode = lastCode none (create c m imports streams).2 ∧
      ∀ earlier step later, session (of imports i) i ops = earlier ++ step :: later →
        StartsOnce c imports (create c m imports streams).2 earlier step := by
  obtain ⟨hon, hstarted, hreturn, hexit, -⟩ := created h
  refine ⟨(create_fst c m imports streams).trans h, hexit, fun earlier step later hsession => ?_⟩
  have hreaches := session_reaches hon hsession
  have hdoes := hreaches.does
  have hcode : step.after.exitCode =
      lastCode none
        ((create c m imports streams).2 ++ (earlier ++ [step]).flatMap Step.events) := by
    rw [lastCode_append, ← hexit, List.flatMap_append, lastCode_append, ← hreaches.exitCode,
      List.flatMap_singleton]
    exact hdoes.recounts.exitCode
  refine ⟨hdoes.watched, fun hop hearlier => hdoes.again hop ?_, hdoes.idle, hdoes.drained,
    fun hcalm code => ?_, fun hcalm code hexited => ?_, hcode⟩
  · rw [hreaches.started, hearlier, Bool.or_true]
  · rw [hdoes.exited_iff hcalm, hreaches.returnOnExit, hreturn]
  · obtain ⟨before, hevents, hbefore⟩ := hdoes.last hcalm code hexited
    refine ⟨⟨before, hevents, hbefore⟩, ?_⟩
    have hlast := hdoes.recounts.exitCode
    rw [hevents, lastCode_append] at hlast
    exact hlast

/-- A command that asks to be ended with the code 3, and is then to be set up as a reactor. -/
theorem session_startsOnce_escapee :
    Instance.create {} Instance.escapee .empty (.over [] ⟨1⟩ ⟨2⟩) = .ok Instance.escaping ∧
      ∃ first second,
        session (of .empty Instance.escaping) Instance.escaping [.start, .begin] = [first, second] ∧
          first.Exited 3 ∧ .exit 3 ∈ first.events ∧ first.after.exitCode = some 3 ∧
          second.reply = .error .alreadyStarted ∧ second.after = first.after ∧
          second.events = [] := by
  obtain ⟨-, -, hsession⟩ := session_startsOnce Instance.create_escapee [.start, .begin]
  have hfirst := hsession [] _ _ rfl
  have hsecond := hsession [_] _ [] rfl
  have hcalm : ∀ i ∈ ImportSet.empty.entries, i.Calm := nofun
  have hrun : ((Op.start.run .plain).apply Instance.escaping).1 = .ok (.outcome (.exited 3)) := by
    rfl
  have hexited : (Op.start.step (of .empty Instance.escaping) Instance.escaping).Exited 3 :=
    ⟨rfl, (congrArg Prod.fst hfirst.watched).symm.trans hrun⟩
  obtain ⟨-, hcode⟩ := hfirst.last hcalm 3 hexited
  obtain ⟨hreply, hafter, hevents⟩ := hsecond.again rfl rfl
  exact ⟨Instance.create_escapee, _, _, rfl, hexited, ((hfirst.exited_iff hcalm 3).1 hexited).2.2,
    hcode, hreply, hafter, hevents⟩

end Watch

end GuestHost
