import GuestHost.Proofs.Suspension.Faithful

/-!
# Suspension is transparent

A `Program` is what a guest does between the entry and the return of an export: it works on the
world that it shares with its host, and calls imports.  `Program.direct` runs it with every import
answering at once.  `Program.entered` is the instrumented export: at an import that has no answer
yet it remembers the call and returns, and a guest that rewinds takes the program up at the
remembered call.

`Program.drive_entered` says that driving the instrumented export comes to the same as the direct
run, whichever of the answers are pending.  The invariant is `Program.tail_yields`: from a guest
that runs as usual, the rest of a program and of the rounds that it needs end as the direct run of
that rest does.
-/

namespace GuestHost

namespace Suspension

/-- What a guest does in an export, where `ω` is the world, `A` are the arguments of imports, `V`
their answers and `R` the results of the export. -/
inductive Program (ω A V R : Type) where
  /-- It returns. -/
  | done (result : R)
  /-- It changes the world and goes on as it finds the world then. -/
  | step (effect : ω → ω) (next : ω → Program ω A V R)
  /-- It calls an import and goes on with the answer. -/
  | call (arg : A) (next : V → Program ω A V R)

/-- The host's side of the imports. -/
structure Imports (ω A V : Type) where
  /-- The answer to an import, and what the host makes of the world. -/
  answer : A → ω → V × ω
  /-- Whether the answer to the import with this number is pending. -/
  pends : Nat → Bool

/-- What a run comes to. -/
structure Outcome (ω A R : Type) where
  result : R
  world : ω
  /-- The arguments of the imports, in the order of the calls. -/
  calls : List A

/-- What guest and host keep: the world, and the program that is left from the remembered call. -/
structure Kept (ω A V R : Type) where
  world : ω
  frame : Option (Program ω A V R) := none

/-- What happens around a guest. -/
inductive Event (A : Type) where
  /-- The export is entered. -/
  | entered
  /-- The host's part of an import runs. -/
  | asked (arg : A)
  /-- The guest is given a command. -/
  | told (command : Command)

namespace Event

variable {A : Type}

/-- The arguments with which the host's part of an import ran. -/
def askedArgs (log : List (Event A)) : List A := log.filterMap fun
  | asked a => some a
  | _ => none

/-- The commands that the guest was given. -/
def commands (log : List (Event A)) : List Command := log.filterMap fun
  | told c => some c
  | _ => none

/-- How often the export was entered. -/
def entries (log : List (Event A)) : Nat := log.countP fun
  | entered => true
  | _ => false

theorem entries_entered (log : List (Event A)) : entries (.entered :: log) = entries log + 1 := by
  simp [entries]

end Event

/-- The commands of one suspension. -/
def roundTrip (dataPtr : UInt32) : List Command :=
  [.startUnwind dataPtr, .stopUnwind, .startRewind dataPtr, .stopRewind]

/-- A command that leaves alone what guest and host keep. -/
def leaveOwn {ρ : Type} : Command → ρ → ρ := fun _ x => x

/-- How many of `count` answers are pending, the first of which has the number `n`. -/
def Imports.pending {ω A V : Type} (i : Imports ω A V) (n count : Nat) : Nat :=
  (List.range' n count).countP i.pends

theorem Imports.pending_succ {ω A V : Type} (i : Imports ω A V) (n count : Nat) :
    i.pending n (count + 1) = i.pending (n + 1) count + if i.pends n then 1 else 0 := by
  simp [pending, List.range'_succ, List.countP_cons]

namespace Program

variable {σ ω A V R : Type}

/-- Runs a program with every import answering at once. -/
def direct (i : Imports ω A V) : Program ω A V R → ω → Outcome ω A R
  | done r, w => ⟨r, w, []⟩
  | step f next, w => direct i (next (f w)) (f w)
  | call a next, w =>
    let o := direct i (next (i.answer a w).1) (i.answer a w).2
    { o with calls := a :: o.calls }

/-! ## The instrumented export -/

variable (h : Faithful σ V (leaveOwn (ρ := Kept ω A V R))) (i : Imports ω A V) (unwound : R)

/-- The guest with a log of what happens around it. -/
abbrev watched := h.logged fun c => [Event.told (A := A) c]

def kept (t : Logged σ (Event A)) : Kept ω A V R := (h.view t.state).own

def keep (k : Kept ω A V R) (t : Logged σ (Event A)) : Logged σ (Event A) :=
  { t with state := h.setOwn k t.state }

/-- The host's part of an import. -/
def ask (a : A) : Action (Logged σ (Event A)) (HostValue V) := do
  let t ← get
  let k := kept h t
  let (value, world) := i.answer a k.world
  modify (keep h { k with world })
  Action.record [.asked a]
  if i.pends (Event.askedArgs t.log).length then pure (.pending (.ok value))
  else pure (.ready value)

/-- What is left of an export.  At an import that has no answer yet the guest remembers what is left
and returns; what it returns then is of no account. -/
def resumed : Program ω A V R → Action (Logged σ (Event A)) R
  | done r => pure r
  | step f next => do
    let t ← get
    let k := kept h t
    modify (keep h { k with world := f k.world })
    resumed (next (f k.world))
  | call a next => do
    match ← (watched h).intercept (ask h i a) with
    | some value => resumed (next value)
    | none =>
      modify fun t => keep h { kept h t with frame := some (call a next) } t
      pure unwound

/-- The export: a guest that rewinds goes on at the call that it remembers. -/
def entered (p : Program ω A V R) : Action (Logged σ (Event A)) R := do
  Action.record [.entered]
  let t ← get
  match (h.view t.state).phase, (kept h t).frame with
  | .rewinding, some left => resumed h i unwound left
  | _, _ => resumed h i unwound p

/-! ## What the parts of the export do -/

variable {phase : State} {stash : Stash V} {k : Kept ω A V R} {l : List (Event A)}

theorem kept_eq {t : Logged σ (Event A)} (ht : (watched h).At ⟨phase, stash, (k, l)⟩ t) :
    (h.view t.state).phase = phase ∧ kept h t = k ∧ t.log = l := by
  obtain ⟨hv, hl⟩ := (h.loggedView_eq_iff).1 ht
  exact ⟨by rw [hv], by rw [kept, hv], hl⟩

theorem keep_at {t : Logged σ (Event A)} (ht : (watched h).At ⟨phase, stash, (k, l)⟩ t)
    (k' : Kept ω A V R) :
    (watched h).At ⟨phase, stash, (k', l)⟩ (keep h k' t) := by
  obtain ⟨hv, hl⟩ := (h.loggedView_eq_iff).1 ht
  refine (h.loggedView_eq_iff).2 ⟨?_, hl⟩
  rw [keep, h.view_setOwn, hv]

theorem record_at (e : List (Event A)) :
    (Action.record e).Yields ((watched h).At ⟨phase, stash, (k, l)⟩) ()
      ((watched h).At ⟨phase, stash, (k, l ++ e)⟩) := by
  intro t ht
  obtain ⟨hv, hl⟩ := (h.loggedView_eq_iff).1 ht
  exact ⟨rfl, (h.loggedView_eq_iff).2 ⟨hv, congrArg (· ++ e) hl⟩⟩

/-- The host's part of an import answers, changes the world and is logged. -/
theorem ask_yields (a : A) :
    (ask h i a).Yields ((watched h).At ⟨phase, stash, (k, l)⟩)
      (if i.pends (Event.askedArgs l).length then .pending (.ok (i.answer a k.world).1)
        else .ready (i.answer a k.world).1)
      ((watched h).At
        ⟨phase, stash, ({ k with world := (i.answer a k.world).2 }, l ++ [.asked a])⟩) := by
  unfold ask
  refine .get_bind fun t ht => ?_
  obtain ⟨-, hk, hl⟩ := kept_eq h ht
  rw [hk, hl]
  have hkeep : (modify (keep h { k with world := (i.answer a k.world).2 }) :
      Action (Logged σ (Event A)) Unit).Yields (· = t) () ((watched h).At
        ⟨phase, stash, ({ k with world := (i.answer a k.world).2 }, l)⟩) := by
    rintro _ rfl
    exact ⟨rfl, keep_at h ht _⟩
  refine hkeep.bind ((record_at h [.asked a]).bind ?_)
  split <;> exact .pure

theorem import_ready (a : A) (hpends : i.pends (Event.askedArgs l).length = false) :
    ((watched h).intercept (ask h i a)).Yields
      ((watched h).At ⟨.normal, .empty, (k, l)⟩) (some (i.answer a k.world).1)
      ((watched h).At
        ⟨.normal, .empty, ({ k with world := (i.answer a k.world).2 }, l ++ [.asked a])⟩) := by
  have hask : (ask h i a).Yields ((watched h).At ⟨.normal, .empty, (k, l)⟩) _ _ :=
    ask_yields h i a
  rw [hpends] at hask
  exact Faithful.intercept_ready _ rfl hask

/-- An import whose answer is pending tells the guest to unwind. -/
theorem import_pending (a : A) (hpends : i.pends (Event.askedArgs l).length = true) :
    ((watched h).intercept (ask h i a)).Yields
      ((watched h).At ⟨.normal, .empty, (k, l)⟩) none
      ((watched h).At ⟨.unwinding, .pending (.ok (i.answer a k.world).1),
        ({ k with world := (i.answer a k.world).2 },
          l ++ [.asked a] ++ [.told (.startUnwind h.dataPtr)])⟩) := by
  have hask : (ask h i a).Yields ((watched h).At ⟨.normal, .empty, (k, l)⟩) _ _ :=
    ask_yields h i a
  rw [hpends] at hask
  exact Faithful.intercept_pending _ rfl hask rfl

theorem resumed_step (f : ω → ω) (next : ω → Program ω A V R) :
    (resumed h i unwound (step f next)).GoesOn ((watched h).At ⟨phase, stash, (k, l)⟩)
      (resumed h i unwound (next (f k.world)))
      ((watched h).At ⟨phase, stash, ({ k with world := f k.world }, l)⟩) := by
  rw [resumed]
  refine .get_bind fun t ht => ?_
  obtain ⟨-, hk, -⟩ := kept_eq h ht
  rw [hk]
  refine Action.Yields.goesOn (Action.Yields.modify ?_)
  rintro _ rfl
  exact keep_at h ht _

theorem resumed_ready (a : A) (next : V → Program ω A V R)
    (hpends : i.pends (Event.askedArgs l).length = false) :
    (resumed h i unwound (call a next)).GoesOn
      ((watched h).At ⟨.normal, .empty, (k, l)⟩)
      (resumed h i unwound (next (i.answer a k.world).1))
      ((watched h).At
        ⟨.normal, .empty, ({ k with world := (i.answer a k.world).2 }, l ++ [.asked a])⟩) := by
  rw [resumed]
  exact (import_ready h i a hpends).goesOn

/-- A guest that is told to unwind remembers the call and returns. -/
theorem resumed_pending (a : A) (next : V → Program ω A V R)
    (hpends : i.pends (Event.askedArgs l).length = true) :
    (resumed h i unwound (call a next)).Yields
      ((watched h).At ⟨.normal, .empty, (k, l)⟩) unwound
      ((watched h).At ⟨.unwinding, .pending (.ok (i.answer a k.world).1),
        (⟨(i.answer a k.world).2, some (call a next)⟩,
          l ++ [.asked a] ++ [.told (.startUnwind h.dataPtr)])⟩) := by
  rw [resumed]
  refine (import_pending h i a hpends).bind ?_
  refine (Action.Yields.modify fun t ht => ?_).bind .pure
  obtain ⟨-, hk, -⟩ := kept_eq h ht
  rw [hk]
  exact keep_at h ht _

/-- A guest that has rewound to its call gets the answer and goes on; the host's part of the import
is not run again. -/
theorem resumed_rewinding (a : A) (next : V → Program ω A V R) (value : V) :
    (resumed h i unwound (call a next)).GoesOn
      ((watched h).At ⟨.rewinding, .resolved value, (k, l)⟩)
      (resumed h i unwound (next value))
      ((watched h).At ⟨.normal, .empty, (k, l ++ [.told .stopRewind])⟩) := by
  rw [resumed]
  exact (Faithful.intercept_rewinding _ rfl rfl _).goesOn

/-- A guest that rewinds takes the program up at the call that it remembers. -/
theorem entered_rewinding {p left : Program ω A V R} {w : ω} :
    (entered h i unwound p).GoesOn
      ((watched h).At ⟨.rewinding, stash, (⟨w, some left⟩, l)⟩) (resumed h i unwound left)
      ((watched h).At ⟨.rewinding, stash, (⟨w, some left⟩, l ++ [.entered])⟩) := by
  unfold entered
  refine (record_at h [.entered]).goesOn.trans ?_
  refine .get_bind fun t ht => ?_
  obtain ⟨hphase, hk, -⟩ := kept_eq h ht
  rw [hphase, hk]
  exact .of_imp fun _ he => he ▸ ht

theorem entered_normal {p : Program ω A V R} :
    (entered h i unwound p).GoesOn ((watched h).At ⟨.normal, stash, (k, l)⟩)
      (resumed h i unwound p) ((watched h).At ⟨.normal, stash, (k, l ++ [.entered])⟩) := by
  unfold entered
  refine (record_at h [.entered]).goesOn.trans ?_
  refine .get_bind fun t ht => ?_
  obtain ⟨hphase, -, -⟩ := kept_eq h ht
  rw [hphase]
  exact .of_imp fun _ he => he ▸ ht

/-! ## The rest of a run -/

/-- What happens from a call on, if the next imports have these arguments and the first of them has
the number `n`. -/
def script (dataPtr : UInt32) (i : Imports ω A V) : Nat → List A → List (Event A)
  | _, [] => []
  | n, a :: rest =>
    let suspension : List (Event A) :=
      [.told (.startUnwind dataPtr), .told .stopUnwind, .told (.startRewind dataPtr), .entered,
        .told .stopRewind]
    .asked a :: (if i.pends n then suspension else []) ++ script dataPtr i (n + 1) rest

/-- The guest runs as usual with no answer on its way, in the world `w` and with the log `l`. -/
def Idle (w : ω) (l : List (Event A)) (t : Logged σ (Event A)) : Prop :=
  ∃ frame, (watched h).At ⟨.normal, .empty, (⟨w, frame⟩, l)⟩ t

/-- The export `p` after it has returned for the first time, or for the first time again. -/
def rest (p : Program ω A V R) (rounds : Nat) (r : R) : Action (Logged σ (Event A)) R :=
  (watched h).settle r >>= (watched h).follow (entered h i unwound p) rounds

theorem rest_finished (p : Program ω A V R) (rounds : Nat) (r : R) :
    (rest h i unwound p rounds r).Yields ((watched h).At ⟨.normal, .empty, (k, l)⟩) r
      (Idle h k.world l) := by
  refine ((watched h).settle_normal (v := ⟨.normal, .empty, (k, l)⟩) rfl r).bind ?_
  rw [Protocol.follow]
  exact Action.Yields.pure.mono (fun _ hs => hs) fun t ht => ⟨k.frame, ht⟩

/-- One suspension: the guest that has unwound is told to rewind, enters the export again, and is
back at the call that it remembers, with the answer. -/
theorem rest_suspended (p : Program ω A V R) (rounds : Nat) (r : R) (w : ω) (a : A) (value : V)
    (next : V → Program ω A V R) :
    (rest h i unwound p (rounds + 1) r).GoesOn
      ((watched h).At ⟨.unwinding, .pending (.ok value), (⟨w, some (call a next)⟩, l)⟩)
      (resumed h i unwound (next value) >>= rest h i unwound p rounds)
      ((watched h).At ⟨.normal, .empty, (⟨w, some (call a next)⟩,
        l ++ [Event.told .stopUnwind] ++ [Event.told (.startRewind h.dataPtr)] ++ [Event.entered] ++
          [Event.told .stopRewind])⟩) := by
  have hsettle := (watched h).settle_unwinding
    (v := ⟨.unwinding, .pending (.ok value), (⟨w, some (call a next)⟩, l)⟩) rfl rfl r
  refine hsettle.goesOn.trans ?_
  rw [Protocol.follow]
  refine ((watched h).resume_ok rfl).bind.trans ?_
  rw [bind_assoc]
  refine (entered_rewinding h i unwound).bind.trans ?_
  exact (resumed_rewinding h i unwound a next value).bind

/-- From a guest that runs as usual, what is left of the program `q` and of the rounds of the export
comes to the same as the direct run of `q`.  The induction is on `q`: at a pending call one round is
used up, and the guest that has rewound is back where it would have been. -/
theorem tail_yields (p q : Program ω A V R) (rounds : Nat) (k : Kept ω A V R) (l : List (Event A))
    (hrounds : i.pending (Event.askedArgs l).length (q.direct i k.world).calls.length ≤ rounds) :
    (resumed h i unwound q >>= rest h i unwound p rounds).Yields
      ((watched h).At ⟨.normal, .empty, (k, l)⟩) (q.direct i k.world).result
      (Idle h (q.direct i k.world).world
        (l ++ script h.dataPtr i (Event.askedArgs l).length (q.direct i k.world).calls)) := by
  induction q generalizing rounds k l with
  | done r =>
    simpa [resumed, direct, script] using rest_finished h i unwound p rounds r
  | step f next ih =>
    exact (resumed_step h i unwound f next).bind.yields (ih _ rounds _ l hrounds)
  | call a next ih =>
    simp only [direct, List.length_cons, Imports.pending_succ] at hrounds
    cases hpends : i.pends (Event.askedArgs l).length with
    | false =>
      -- The answer is there: the guest goes on, and the rounds stay as they are.
      refine (resumed_ready h i unwound a next hpends).bind.yields ?_
      have hn : (Event.askedArgs (l ++ [Event.asked a])).length =
          (Event.askedArgs l).length + 1 := by
        simp [Event.askedArgs]
      have htail := ih (i.answer a k.world).1 rounds { k with world := (i.answer a k.world).2 }
        (l ++ [Event.asked a])
      rw [hn] at htail
      simpa [direct, script, hpends] using htail (by simpa [hpends] using hrounds)
    | true =>
      -- One round takes the guest out and back to this call; then it goes on as above.
      rw [hpends, if_pos rfl] at hrounds
      obtain ⟨rounds, rfl⟩ : ∃ n, rounds = n + 1 := ⟨rounds - 1, by omega⟩
      refine (resumed_pending h i unwound a next hpends).bind ?_
      refine (rest_suspended h i unwound p rounds unwound _ a _ next).yields ?_
      have htail := ih (i.answer a k.world).1 rounds ⟨(i.answer a k.world).2, some (call a next)⟩
        (l ++ [Event.asked a] ++ [Event.told (.startUnwind h.dataPtr)] ++
          [Event.told .stopUnwind] ++ [Event.told (.startRewind h.dataPtr)] ++ [Event.entered] ++
          [Event.told .stopRewind])
      have hn : (Event.askedArgs (l ++ [Event.asked a] ++ [Event.told (.startUnwind h.dataPtr)] ++
          [Event.told .stopUnwind] ++ [Event.told (.startRewind h.dataPtr)] ++ [Event.entered] ++
          [Event.told .stopRewind])).length = (Event.askedArgs l).length + 1 := by
        simp [Event.askedArgs]
      rw [hn] at htail
      simpa [direct, script, hpends] using htail (Nat.le_of_succ_le_succ hrounds)

/-! ## What a script tells -/

theorem askedArgs_script (dataPtr : UInt32) (n : Nat) (calls : List A) :
    Event.askedArgs (script dataPtr i n calls) = calls := by
  induction calls generalizing n with
  | nil => rfl
  | cons a rest ih =>
    simp only [Event.askedArgs] at ih ⊢
    cases hpends : i.pends n <;> simp [script, hpends, ih]

theorem entries_script (dataPtr : UInt32) (n : Nat) (calls : List A) :
    Event.entries (script dataPtr i n calls) = i.pending n calls.length := by
  induction calls generalizing n with
  | nil => rfl
  | cons a rest ih =>
    simp only [Event.entries] at ih ⊢
    rw [List.length_cons, Imports.pending_succ]
    cases hpends : i.pends n <;> simp [script, hpends, ih]

theorem commands_script (dataPtr : UInt32) (n : Nat) (calls : List A) :
    Event.commands (script dataPtr i n calls) =
      (List.replicate (i.pending n calls.length) (roundTrip dataPtr)).flatten := by
  induction calls generalizing n with
  | nil => rfl
  | cons a rest ih =>
    simp only [Event.commands] at ih ⊢
    rw [List.length_cons, Imports.pending_succ]
    cases hpends : i.pends n <;> simp [script, hpends, ih, List.replicate_succ, roundTrip]

/-! ## The whole run -/

theorem drive_yields (p : Program ω A V R) (rounds : Nat) (k : Kept ω A V R)
    (hrounds : i.pending 0 (p.direct i k.world).calls.length ≤ rounds) :
    ((watched h).drive rounds (entered h i unwound p)).Yields
      ((watched h).At ⟨.normal, .empty, (k, [])⟩) (p.direct i k.world).result
      (Idle h (p.direct i k.world).world
        (.entered :: script h.dataPtr i 0 (p.direct i k.world).calls)) := by
  unfold Protocol.drive
  refine ((watched h).begin_normal rfl).bind.yields ?_
  rw [bind_assoc]
  refine (entered_normal h i unwound).bind.yields ?_
  exact tail_yields h i unwound p p rounds k [.entered] hrounds

/-- Suspension is transparent.  An instrumented export, driven for at least as many rounds as there
are pending answers, returns what the direct run of its program returns and leaves the world that
the direct run leaves.  The host's part of the imports runs as often, in the same order and with the
same arguments as in the direct run; the export is entered once, and once more for each pending
answer; each pending answer takes the guest out and back in once, and no other command is given; and
in the end the guest runs as usual with no answer on its way. -/
theorem drive_entered (p : Program ω A V R) (rounds : Nat) (s : σ)
    (hphase : (h.view s).phase = .normal) (hstash : (h.view s).stash = .empty)
    (hrounds : i.pending 0 (p.direct i (h.view s).own.world).calls.length ≤ rounds) :
    let o := p.direct i (h.view s).own.world
    let pending := i.pending 0 o.calls.length
    ∃ t, ((watched h).drive rounds (entered h i unwound p)).apply ⟨s, []⟩ =
        (.ok o.result, t) ∧
      (h.view t.state).own.world = o.world ∧
      (h.view t.state).phase = .normal ∧ (h.view t.state).stash = .empty ∧
      Event.askedArgs t.log = o.calls ∧
      Event.entries t.log = 1 + pending ∧
      Event.commands t.log = (List.replicate pending (roundTrip h.dataPtr)).flatten := by
  intro o pending
  have hat : (watched h).At ⟨.normal, .empty, ((h.view s).own, [])⟩ ⟨s, []⟩ := by
    refine (h.loggedView_eq_iff).2 ⟨?_, rfl⟩
    rw [← hphase, ← hstash]
  obtain ⟨hresult, frame, hidle⟩ := drive_yields h i unwound p rounds _ hrounds _ hat
  obtain ⟨hview, hlog⟩ := (h.loggedView_eq_iff).1 hidle
  refine ⟨_, Prod.ext hresult rfl, ?_, ?_, ?_, ?_, ?_, ?_⟩
  · rw [hview]
  · rw [hview]
  · rw [hview]
  · rw [hlog]
    exact askedArgs_script i h.dataPtr 0 o.calls
  · rw [hlog]
    rw [Event.entries_entered, Nat.add_comm]
    exact congrArg (1 + ·) (entries_script i h.dataPtr 0 o.calls)
  · rw [hlog]
    exact commands_script i h.dataPtr 0 o.calls

/-- Three imports, each of which gets what the ones before it have answered; the first two answers
are pending. -/
theorem drive_entered_relay :
    let p : Program Nat Nat Nat Nat :=
      .call 3 fun x => .step (· + x) fun w => .call (x + w) fun y => .call (x + y) .done
    let i : Imports Nat Nat Nat := { answer := fun a w => (2 * a, w + 1), pends := (· < 2) }
    let h := Faithful.plain (V := Nat) 16 (leaveOwn (ρ := Kept Nat Nat Nat Nat))
    ∃ t, ((watched h).drive 2 (entered h i 0 p)).apply ⟨⟨.normal, .empty, ⟨0, none⟩⟩, []⟩ =
        (.ok 64, t) ∧
      t.state.own.world = 9 ∧ t.state.phase = .normal ∧ t.state.stash = .empty ∧
      Event.askedArgs t.log = [3, 13, 32] ∧ Event.entries t.log = 3 ∧
      Event.commands t.log = roundTrip 16 ++ roundTrip 16 := by
  intro p i h
  exact drive_entered h i 0 p 2 ⟨.normal, .empty, ⟨0, none⟩⟩ rfl rfl (by decide)

end Program

end Suspension

end GuestHost
