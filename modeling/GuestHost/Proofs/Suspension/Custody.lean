import GuestHost.Proofs.Suspension.Unruly
import Mathlib.Data.List.Induction

/-!
# The custody of an answer

What a guest may say and do makes no difference to the answers that wait for it.  `Custody` reads it
off the log of a session: which entries may come before and after which, and that the changes of the
stash are those of one answer after the other, each of which goes through the stages of a `Life`.
So an answer is awaited at most once and handed out at most once.  `custody_session` says that the
log of every session of an unruly guest is in custody.
-/

namespace GuestHost

namespace Suspension

variable {σ V R : Type}

/-! ## The life of an answer -/

/-- How far an answer has come that an import could not give at once. -/
inductive Life (V : Type) where
  /-- It is in the stash, and its outcome is not known to the host. -/
  | offered (outcome : Except Fault V)
  /-- It was taken out to be awaited. -/
  | awaited (outcome : Except Fault V)
  /-- It is in the stash again as a value. -/
  | arrived (value : V)
  /-- It was taken out for the guest. -/
  | delivered (value : V)

/-- The changes of the stash up to a stage. -/
def Life.changes : Life V → List (Stash V × Stash V)
  | offered o => [(.empty, .pending o)]
  | awaited o => [(.empty, .pending o), (.pending o, .empty)]
  | arrived v => [(.empty, .pending (.ok v)), (.pending (.ok v), .empty), (.empty, .resolved v)]
  | delivered v =>
    [(.empty, .pending (.ok v)), (.pending (.ok v), .empty), (.empty, .resolved v),
      (.resolved v, .empty)]

/-- What the stash holds in a stage of a life. -/
def Life.stash : Life V → Stash V
  | offered o => .pending o
  | arrived v => .resolved v
  | awaited _ | delivered _ => .empty

/-- The change of the stash that an entry records. -/
def Entry.change? (e : Entry V R) : Option (Stash V × Stash V) :=
  match e.event with
  | .stashed x => some (e.stash, x)
  | _ => none

/-- The changes of the stash, in order. -/
def changes (log : List (Entry V R)) : List (Stash V × Stash V) := log.filterMap Entry.change?

/-! ## Custody -/

/-- Wherever an entry is, the one before satisfies `P`. -/
def Before (log : List (Entry V R)) (e : Entry V R) (P : Entry V R → Prop) : Prop :=
  ∀ l₁ l₂, log = l₁ ++ e :: l₂ → ∃ d, l₁.getLast? = some d ∧ P d

/-- Wherever an entry is, the one after satisfies `P`. -/
def After (log : List (Entry V R)) (e : Entry V R) (P : Entry V R → Prop) : Prop :=
  ∀ l₁ l₂, log = l₁ ++ e :: l₂ → ∃ d, l₂.head? = some d ∧ P d

/-- Answers are neither lost nor doubled. -/
structure Custody (log : List (Entry V R)) : Prop where
  /-- The stash changes only where it is replaced. -/
  kept : ∀ l₁ e e' l₂, log = l₁ ++ e :: e' :: l₂ → e'.stash = e.after
  /-- The host's part of an import runs right after the guest has said that it runs as usual. -/
  ran : ∀ x r, Before log ⟨x, .ran r⟩ (· = ⟨x, .asked (.ok .normal)⟩)
  /-- What is not there yet goes into an empty stash. -/
  accepted : ∀ o, After log ⟨.empty, .ran (.ok (.pending o))⟩
    (· = ⟨.empty, .stashed (.pending o)⟩)
  /-- Another one is refused, and the stash is as before. -/
  refused : ∀ x o, x ≠ .empty → After log ⟨x, .ran (.ok (.pending o))⟩
    (· = ⟨x, .answered (.error (.suspension .alreadyInFlight))⟩)
  /-- The stash changes as the answers live, one after the other. -/
  lives : ∃ lives : List (Life V), changes log = lives.flatMap Life.changes
  offered : ∀ x o, Before log ⟨x, .stashed (.pending o)⟩
    (· = ⟨.empty, .ran (.ok (.pending o))⟩)
  /-- What is awaited was taken out for that, and either arrives or ends the export. -/
  awaited : ∀ o, After log ⟨.pending o, .stashed .empty⟩ fun d =>
    (∃ v, o = .ok v ∧ d = ⟨.empty, .stashed (.resolved v)⟩) ∨
    (∃ f, o = .error f ∧ d = ⟨.empty, .left (.error f)⟩) ∨
      d = ⟨.empty, .left (.error (.trap .outOfFuel))⟩
  arrived : ∀ x v, Before log ⟨x, .stashed (.resolved v)⟩
    (· = ⟨.pending (.ok v), .stashed .empty⟩)
  /-- What has arrived is answered by the import that takes it out. -/
  delivered : ∀ v, After log ⟨.resolved v, .stashed .empty⟩ (· = ⟨.empty, .answered (.ok (some v))⟩)
  /-- An import answers with what the host's part gave just now, or with what has arrived. -/
  answered : ∀ x v, Before log ⟨x, .answered (.ok (some v))⟩ fun d =>
    d = ⟨x, .ran (.ok (.ready v))⟩ ∨ d = ⟨.resolved v, .stashed .empty⟩
  /-- If nothing is pending, nothing is taken out, and the export fails. -/
  nothingPending : ∀ x, (∀ o, x ≠ .pending o) → After log ⟨x, .told .stopUnwind (.ok ())⟩
    (· = ⟨x, .left (.error (.suspension .nothingPending))⟩)
  /-- If nothing has arrived, nothing is taken out, and the import fails. -/
  nothingResolved : ∀ x, (∀ v, x ≠ .resolved v) → After log ⟨x, .told .stopRewind (.ok ())⟩
    (· = ⟨x, .answered (.error (.suspension .nothingResolved))⟩)
  unwound : ∀ x ptr r, ⟨x, .told (.startUnwind ptr) r⟩ ∈ log → ∃ o, x = .pending o
  rewound : ∀ x ptr r, ⟨x, .told (.startRewind ptr) r⟩ ∈ log → ∃ v, x = .resolved v

variable {log l₁ l₂ : List (Entry V R)} {e : Entry V R}

theorem Before.mono {P Q : Entry V R → Prop} (h : Before log e P) (hPQ : ∀ d, P d → Q d) :
    Before log e Q := by
  intro l₁ l₂ hlog
  obtain ⟨d, hd, hP⟩ := h l₁ l₂ hlog
  exact ⟨d, hd, hPQ d hP⟩

theorem Before.exists {P : Entry V R → Prop} (h : Before log e P) (he : e ∈ log) : ∃ d, P d := by
  obtain ⟨l₁, l₂, hlog⟩ := List.append_of_mem he
  obtain ⟨d, -, hP⟩ := h l₁ l₂ hlog
  exact ⟨d, hP⟩

theorem After.mono {P Q : Entry V R → Prop} (h : After log e P) (hPQ : ∀ d, P d → Q d) :
    After log e Q := by
  intro l₁ l₂ hlog
  obtain ⟨d, hd, hP⟩ := h l₁ l₂ hlog
  exact ⟨d, hd, hPQ d hP⟩

theorem Chained.before (h : Chained log) (he : e.event ≠ .opened) : Before log e (Next · e) := by
  intro l₁ l₂ hlog
  cases hlast : l₁.getLast? with
  | none =>
    have hhead := h.head
    rw [List.getLast?_eq_none_iff] at hlast
    rw [hlog, hlast, List.nil_append, List.head?_cons, Option.some_inj] at hhead
    rw [hhead] at he
    exact absurd rfl he
  | some d =>
    refine ⟨d, rfl, ?_⟩
    have hchain := h.chain
    rw [hlog, List.isChain_append] at hchain
    exact hchain.2.2 d hlast e (by simp)

theorem Chained.after (h : Chained log) (he : ¬ e.Rests) : After log e (Next e) := by
  intro l₁ l₂ hlog
  cases l₂ with
  | nil =>
    obtain ⟨d, hrests, hlast⟩ := h.last
    rw [hlog, List.getLast?_concat, Option.some_inj] at hlast
    exact absurd (hlast ▸ hrests) he
  | cons d l₂ =>
    refine ⟨d, rfl, ?_⟩
    have hchain := h.chain
    rw [hlog, List.isChain_append, List.isChain_cons_cons] at hchain
    exact hchain.2.1.1

/-- The stash after the last of several answers. -/
def stashAfter (lives : List (Life V)) : Stash V := (lives.getLast?.map Life.stash).getD .empty

/-- The answers of a log that ends with `e`: the last one is where `e` leaves the stash. -/
structure Fits (lives : List (Life V)) (log : List (Entry V R)) (e : Entry V R) : Prop where
  changes_eq : changes log = lives.flatMap Life.changes
  after_eq : e.after = stashAfter lives
  awaited : ∀ o, e = ⟨.pending o, .stashed .empty⟩ → ∃ done, lives = done ++ [.awaited o]

variable {lives : List (Life V)}

theorem exists_concat_of_stashAfter (lives : List (Life V)) (h : stashAfter lives ≠ .empty) :
    ∃ done life, lives = done ++ [life] ∧ life.stash = stashAfter lives := by
  cases hlast : lives.getLast? with
  | none =>
    rw [stashAfter, hlast] at h
    exact absurd rfl h
  | some life =>
    obtain ⟨done, rfl⟩ := List.getLast?_eq_some_iff.1 hlast
    refine ⟨done, life, rfl, ?_⟩
    rw [stashAfter, hlast]
    rfl

theorem exists_offered {o : Except Fault V} (h : stashAfter lives = .pending o) :
    ∃ done, lives = done ++ [.offered o] := by
  obtain ⟨done, life, rfl, hlife⟩ := exists_concat_of_stashAfter lives (by simp [h])
  rw [h] at hlife
  cases life <;> cases hlife
  exact ⟨done, rfl⟩

theorem exists_arrived {v : V} (h : stashAfter lives = .resolved v) :
    ∃ done, lives = done ++ [.arrived v] := by
  obtain ⟨done, life, rfl, hlife⟩ := exists_concat_of_stashAfter lives (by simp [h])
  rw [h] at hlife
  cases life <;> cases hlife
  exact ⟨done, rfl⟩

theorem Fits.changes_concat {d : Entry V R} (h : Fits lives log d) (e : Entry V R) :
    changes (log ++ [e]) = lives.flatMap Life.changes ++ e.change?.toList := by
  rw [← h.changes_eq, changes, changes, List.filterMap_append]
  cases hc : e.change? <;> simp [hc]

/-- An entry that does not replace the stash adds nothing to any answer. -/
theorem Fits.same {d : Entry V R} (h : Fits lives log d) {x : Stash V} {ev : Occurrence V R}
    (hx : x = d.after) (hev : ∀ y, ev ≠ .stashed y) : Fits lives (log ++ [⟨x, ev⟩]) ⟨x, ev⟩ := by
  have hafter : (Entry.mk x ev).after = x := by
    cases ev with
    | stashed y => exact absurd rfl (hev y)
    | _ => rfl
  have hnone : (Entry.mk x ev).change? = none := by
    cases ev with
    | stashed y => exact absurd rfl (hev y)
    | _ => rfl
  refine ⟨?_, ?_, fun o ho => absurd (congrArg Entry.event ho) (hev _)⟩
  · rw [h.changes_concat, hnone]
    exact List.append_nil _
  · rw [hafter, hx, h.after_eq]

theorem Fits.offered {d : Entry V R} (h : Fits lives log d) (o : Except Fault V) :
    Fits (lives ++ [.offered o]) (log ++ [⟨.empty, .stashed (.pending o)⟩])
      ⟨.empty, .stashed (.pending o)⟩ := by
  refine ⟨?_, by simp [stashAfter, Life.stash, Entry.after], fun o' ho => ?_⟩
  · rw [h.changes_concat, List.flatMap_append]
    rfl
  · simp at ho

/-- The last answer comes further by one change of the stash. -/
theorem Fits.further {done : List (Life V)} {life : Life V} {x y : Stash V} {d : Entry V R}
    (h : Fits (done ++ [life]) log d) (life' : Life V)
    (hchanges : life'.changes = life.changes ++ [(x, y)]) (hstash : life'.stash = y)
    (hawaited : ∀ o, x = .pending o → y = .empty → life' = .awaited o) :
    Fits (done ++ [life']) (log ++ [⟨x, .stashed y⟩]) ⟨x, .stashed y⟩ := by
  refine ⟨?_, ?_, fun o ho => ⟨done, ?_⟩⟩
  · rw [h.changes_concat, List.flatMap_append, List.flatMap_append, List.append_assoc,
      List.flatMap_singleton, List.flatMap_singleton, hchanges]
    rfl
  · rw [stashAfter, List.getLast?_concat]
    exact hstash.symm
  · rw [Entry.mk.injEq, Occurrence.stashed.injEq] at ho
    rw [hawaited o ho.1 ho.2]

theorem exists_fits (hhead : log.head? = some ⟨.empty, .opened⟩) (hchain : log.IsChain Next)
    (hlast : log.getLast? = some e) : ∃ lives : List (Life V), Fits lives log e := by
  induction log using List.reverseRecOn generalizing e with
  | nil => simp at hlast
  | append_singleton log e' ih =>
    rw [List.getLast?_concat, Option.some_inj] at hlast
    subst hlast
    cases hd : log.getLast? with
    | none =>
      rw [List.getLast?_eq_none_iff] at hd
      subst hd
      rw [List.nil_append, List.head?_cons, Option.some_inj] at hhead
      subst hhead
      exact ⟨[], rfl, rfl, fun o ho => by simp at ho⟩
    | some d =>
      have hne : log ≠ [] := by
        rintro rfl
        simp at hd
      rw [List.head?_append_of_ne_nil _ hne] at hhead
      rw [List.isChain_append] at hchain
      obtain ⟨lives, hfits⟩ := ih hhead hchain.1 hd
      obtain ⟨hstash, hfollows⟩ := hchain.2.2 d hd e' (by simp)
      obtain ⟨x, ev⟩ := e'
      -- What an entry replaces the stash after tells how far the last answer has come.
      by_cases hev : ∃ y, ev = .stashed y
      · obtain ⟨y, rfl⟩ := hev
        have hafter : stashAfter lives = x := by rw [← hfits.after_eq, ← hstash]
        cases hfollows with
        | accept =>
          cases hstash
          exact ⟨_, hfits.offered _⟩
        | take_pending =>
          cases hstash
          obtain ⟨done, rfl⟩ := exists_offered hafter
          refine ⟨_, hfits.further (.awaited _) rfl rfl fun o ho _ => ?_⟩
          rw [Stash.pending.inj ho]
        | arrived =>
          cases hstash
          obtain ⟨done, rfl⟩ := hfits.awaited _ rfl
          exact ⟨_, hfits.further (.arrived _) rfl rfl fun o ho _ => by cases ho⟩
        | take_resolved =>
          cases hstash
          obtain ⟨done, rfl⟩ := exists_arrived hafter
          exact ⟨_, hfits.further (.delivered _) rfl rfl fun o ho _ => by cases ho⟩
      · exact ⟨lives, hfits.same hstash fun y hy => hev ⟨y, hy⟩⟩

theorem Chained.custody (h : Chained log) : Custody log := by
  constructor
  case kept =>
    intro l₁ e e' l₂ hlog
    have hchain := h.chain
    rw [hlog, List.isChain_append, List.isChain_cons_cons] at hchain
    exact hchain.2.1.1.1
  case ran =>
    intro x r
    refine (h.before (by simp)).mono ?_
    rintro ⟨y, ev⟩ ⟨rfl, hf⟩
    cases hf
    rfl
  case accepted =>
    intro o
    refine (h.after (by rintro ⟨⟩)).mono ?_
    rintro ⟨y, ev⟩ ⟨rfl, hf⟩
    cases hf with
    | accept => rfl
    | refuse hne => exact absurd rfl hne
    | drive h | turn h | failed h => cases h
  case refused =>
    intro x o hx
    refine (h.after (by rintro ⟨⟩)).mono ?_
    rintro ⟨y, ev⟩ ⟨rfl, hf⟩
    cases hf with
    | refuse hne => rfl
    | accept => exact absurd rfl hx
    | drive h | turn h | failed h => cases h
  case lives =>
    obtain ⟨e, -, hlast⟩ := h.last
    obtain ⟨lives, hfits⟩ := exists_fits h.head h.chain hlast
    exact ⟨lives, hfits.changes_eq⟩
  case offered =>
    intro x o
    refine (h.before (by simp)).mono ?_
    rintro ⟨y, ev⟩ ⟨hstash, hf⟩
    cases hf
    rfl
  case awaited =>
    intro o
    refine (h.after (by rintro ⟨⟩)).mono ?_
    rintro ⟨y, ev⟩ ⟨rfl, hf⟩
    cases hf with
    | arrived => exact .inl ⟨_, rfl, rfl⟩
    | not_arrived => exact .inr (.inl ⟨_, rfl, rfl⟩)
    | given_up => exact .inr (.inr rfl)
    | drive h | turn h | failed h => cases h
  case arrived =>
    intro x v
    refine (h.before (by simp)).mono ?_
    rintro ⟨y, ev⟩ ⟨hstash, hf⟩
    cases hf
    rfl
  case delivered =>
    intro v
    refine (h.after (by rintro ⟨⟩)).mono ?_
    rintro ⟨y, ev⟩ ⟨rfl, hf⟩
    cases hf with
    | delivered => rfl
    | drive h | turn h | failed h => cases h
  case answered =>
    intro x v
    refine (h.before (by simp)).mono ?_
    rintro ⟨y, ev⟩ ⟨hstash, hf⟩
    cases hf with
    | ready =>
      cases hstash
      exact .inl rfl
    | delivered => exact .inr rfl
  case nothingPending =>
    intro x hx
    refine (h.after (by rintro ⟨⟩)).mono ?_
    rintro ⟨y, ev⟩ ⟨rfl, hf⟩
    cases hf with
    | nothing_pending => rfl
    | take_pending => exact absurd rfl (hx _)
    | drive h | turn h | failed h => cases h
  case nothingResolved =>
    intro x hx
    refine (h.after (by rintro ⟨⟩)).mono ?_
    rintro ⟨y, ev⟩ ⟨rfl, hf⟩
    cases hf with
    | nothing_resolved => rfl
    | take_resolved => exact absurd rfl (hx _)
    | drive h | turn h | failed h => cases h
  case unwound =>
    intro x ptr r hmem
    obtain ⟨⟨y, ev⟩, hstash, hf⟩ := (h.before (by simp)).exists hmem
    cases hf
    exact ⟨_, hstash⟩
  case rewound =>
    intro x ptr r hmem
    obtain ⟨⟨y, ev⟩, hstash, hf⟩ := (h.before (by simp)).exists hmem
    cases hf
    exact ⟨_, hstash⟩

/-- Whatever an unruly guest says and does, no answer is lost or doubled in a session. -/
theorem custody_session (h : Unruly σ V) (visits : List (Nat × Visit h R)) (s : σ) :
    Custody (h.session visits s).log :=
  (h.session_chained visits s).custody

/-! ## A guest with a script -/

/-- What a guest is going to answer and the outcomes of its controls, whatever it is asked and
told. -/
structure Script (V : Type) where
  answers : List (Except Fault State)
  outcomes : List (Except Fault Unit)
  stash : Stash V

/-- Follows the script.  After its end the guest runs as usual and its controls succeed. -/
def scripted (V : Type) : Unruly (Script V) V :=
  let control : Action (Script V) Unit := .of fun s =>
    (s.outcomes.headD (.ok ()), { s with outcomes := s.outcomes.tail })
  { state := .of fun s => (s.answers.headD (.ok .normal), { s with answers := s.answers.tail })
    startUnwind := fun _ => control
    stopUnwind := control
    startRewind := fun _ => control
    stopRewind := control
    dataPtr := 0
    stash := Script.stash
    setStash := fun x s => { s with stash := x }
    stash_setStash := fun _ _ => rfl
    state_quiet := fun _ => rfl
    startUnwind_quiet := fun _ _ => rfl
    stopUnwind_quiet := fun _ => rfl
    startRewind_quiet := fun _ _ => rfl
    stopRewind_quiet := fun _ => rfl }

/-- An export that calls an import that has no answer yet, and then another. -/
def twoCalls : Visit (scripted Nat) Unit :=
  .call (pure (.pending (.ok 7))) (fun _ => rfl) fun _ =>
    .call (pure (.pending (.ok 8))) (fun _ => rfl) fun _ => .finish (.ok ())

-- The guest goes on as if it had not been told to unwind.  The second answer is refused.
example : ((scripted Nat).session [(1, twoCalls)] ⟨[], [], .empty⟩).log.drop 4 =
    [⟨.empty, .ran (.ok (.pending (.ok 7)))⟩, ⟨.empty, .stashed (.pending (.ok 7))⟩,
      ⟨.pending (.ok 7), .told (.startUnwind 0) (.ok ())⟩, ⟨.pending (.ok 7), .answered (.ok none)⟩,
      ⟨.pending (.ok 7), .asked (.ok .normal)⟩, ⟨.pending (.ok 7), .asked (.ok .normal)⟩,
      ⟨.pending (.ok 7), .ran (.ok (.pending (.ok 8)))⟩,
      ⟨.pending (.ok 7), .answered (.error (.suspension .alreadyInFlight))⟩,
      ⟨.pending (.ok 7), .asked (.ok .normal)⟩, ⟨.pending (.ok 7), .asked (.ok .normal)⟩,
      ⟨.pending (.ok 7), .left (.ok ())⟩] := by cbv

end Suspension

end GuestHost
