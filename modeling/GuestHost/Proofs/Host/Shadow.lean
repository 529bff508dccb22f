import GuestHost.Proofs.Host.Exit
import GuestHost.Proofs.Host.Watch

/-!
# What is written down about a guest

`Tells` says what a log has to do with a run: the exit code is that of the last request to be ended,
and a guest whose requests are granted makes one at most, as the last thing that it does.
`Follows b a s T` says that `b`, started in `s`, does under a watch what `a` does without, and that
its log, its result and its state satisfy `T`.  `Shadows` is this for any state, with a log that
tells of the host.  A protocol of suspension under a watch is the shadow of the one without,
`intercept_shadows` and `drive_shadows`.

That a run which ends with `Fault.exit` ends with a request of the guest only holds if the host does
not provide functions that end in this way themselves.  This is the condition `calm`; nothing else
depends on it.
-/

namespace GuestHost

open Suspension (Controls Stash)

namespace Watch

variable {σ α β V R : Type}

/-- The codes of the requests to be ended, in order. -/
def codes (events : List Event) : List Int32 :=
  events.filterMap fun
    | .exit code => some code
    | .instruction | .called .. => none

/-- The code of the last request, or the code from before. -/
def lastCode (code : Option Int32) (events : List Event) : Option Int32 :=
  (codes events).getLast?.or code

theorem codes_append (events events' : List Event) :
    codes (events ++ events') = codes events ++ codes events' :=
  List.filterMap_append

theorem lastCode_append (code : Option Int32) (events events' : List Event) :
    lastCode code (events ++ events') = lastCode (lastCode code events) events' := by
  rw [lastCode, codes_append, List.getLast?_append, Option.or_assoc]
  rfl

theorem mem_codes {code : Int32} {events : List Event} :
    code ∈ codes events ↔ .exit code ∈ events := by
  rw [codes, List.mem_filterMap]
  constructor
  · rintro ⟨_ | _ | code', hevent, hcode⟩
    · cases hcode
    · cases hcode
    · cases hcode
      exact hevent
  · exact fun hevent => ⟨.exit code, hevent, rfl⟩

/-- The system calls that were written down were answered by a host that hands over the given
strings. -/
def Answers (args env : StringBlock) (events : List Event) : Prop :=
  ∀ call before answer after, .called call before answer after ∈ events →
    ∃ s : Host.Store, s.host.wasi.args = args ∧ s.host.wasi.env = env ∧ s.memory = before ∧
      ((Host.answerCall call).apply s).1 = answer ∧
        ((Host.answerCall call).apply s).2.memory = after

/-- No answer is awaited that would end the guest, unless the host is not calm. -/
def Sound (calm : Prop) (h : Host) : Prop := ∀ o, h.stash = .pending o → calm → NoExit o

/-- What was written down while a host changed. -/
structure Recounts (calm : Prop) (h : Host) (events : List Event) (h' : Host) : Prop where
  sound : Sound calm h'
  returnOnExit : h'.wasi.returnOnExit = h.wasi.returnOnExit
  exitCode : h'.wasi.exitCode = lastCode h.wasi.exitCode events
  args : h'.wasi.args = h.wasi.args
  env : h'.wasi.env = h.wasi.env
  answers : Answers h.wasi.args h.wasi.env events

/-- What was written down while a host changed and something ended with a result. -/
structure Tells (calm : Prop) (h : Host) (events : List Event) (r : Except Fault α) (h' : Host) :
    Prop extends Recounts calm h events h' where
  /-- A guest whose requests are granted has made none if it is not at its end. -/
  going : h.wasi.returnOnExit = true → NoExit r → codes events = []
  /-- A guest that is ended has made one request, which was granted, and nothing after it. -/
  ended : calm → ∀ code, r = .error (.exit code) → h.wasi.returnOnExit = true ∧
    ∃ before, events = before ++ [.exit code] ∧ codes before = []

variable {calm : Prop} {h h' h'' : Host} {events events' : List Event}

theorem Answers.append {args env : StringBlock} (h₁ : Answers args env events)
    (h₂ : Answers args env events') : Answers args env (events ++ events') := by
  intro call before answer after hmem
  rcases List.mem_append.1 hmem with hmem | hmem
  · exact h₁ _ _ _ _ hmem
  · exact h₂ _ _ _ _ hmem

/-- Nothing was written down while the state behind the calls stayed as it was. -/
theorem Recounts.nothing (hsound : Sound calm h') (hwasi : h'.wasi = h.wasi) :
    Recounts calm h [] h' :=
  ⟨hsound, congrArg Wasi.returnOnExit hwasi, congrArg Wasi.exitCode hwasi,
    congrArg Wasi.args hwasi, congrArg Wasi.env hwasi,
    fun _ _ _ _ hmem => absurd hmem List.not_mem_nil⟩

theorem Recounts.trans (h₁ : Recounts calm h events h') (h₂ : Recounts calm h' events' h'') :
    Recounts calm h (events ++ events') h'' where
  sound := h₂.sound
  returnOnExit := h₂.returnOnExit.trans h₁.returnOnExit
  exitCode := by rw [h₂.exitCode, h₁.exitCode, lastCode_append]
  args := h₂.args.trans h₁.args
  env := h₂.env.trans h₁.env
  answers := h₁.answers.append (h₁.args ▸ h₁.env ▸ h₂.answers)

theorem Tells.nothing {r : Except Fault α} (hrecounts : Recounts calm h [] h')
    (hr : calm → NoExit r) : Tells calm h [] r h' where
  toRecounts := hrecounts
  going _ _ := rfl
  ended hcalm code heq := absurd ⟨code, rfl⟩ (hr hcalm _ heq)

/-- One thing after the other. -/
theorem Tells.trans {x : α} {r : Except Fault β} (h₁ : Tells calm h events (.ok x) h')
    (h₂ : Tells calm h' events' r h'') : Tells calm h (events ++ events') r h'' where
  toRecounts := h₁.toRecounts.trans h₂.toRecounts
  going hreturn hr := by
    rw [codes_append, h₁.going hreturn (.ok x), h₂.going (h₁.returnOnExit.trans hreturn) hr]
    rfl
  ended hcalm code heq := by
    obtain ⟨hreturn, before, rfl, hbefore⟩ := h₂.ended hcalm code heq
    rw [h₁.returnOnExit] at hreturn
    refine ⟨hreturn, events ++ before, (List.append_assoc _ _ _).symm, ?_⟩
    rw [codes_append, h₁.going hreturn (.ok x), hbefore]
    rfl

theorem Tells.error {e : Fault} (h₁ : Tells calm h events (.error e : Except Fault α) h') :
    Tells calm h events (.error e : Except Fault β) h' where
  toRecounts := h₁.toRecounts
  going hreturn hr := h₁.going hreturn fun e' he' => hr e' (congrArg _ (Except.error.inj he'))
  ended hcalm code heq := h₁.ended hcalm code (congrArg _ (Except.error.inj heq))

/-- A guest is ended with a code if and only if it asks for it and is granted it. -/
theorem Tells.eq_exit_iff {r : Except Fault α} (htells : Tells calm h events r h') (hcalm : calm)
    (code : Int32) :
    r = .error (.exit code) ↔ h.wasi.returnOnExit = true ∧ .exit code ∈ events := by
  constructor
  · intro hr
    obtain ⟨hreturn, before, rfl, -⟩ := htells.ended hcalm code hr
    exact ⟨hreturn, List.mem_append_right _ (List.mem_singleton_self _)⟩
  · rintro ⟨hreturn, hevent⟩
    by_cases hno : NoExit r
    · rw [← mem_codes, htells.going hreturn hno] at hevent
      cases hevent
    · simp only [NoExit, not_forall, not_not] at hno
      obtain ⟨_, hr, code', rfl⟩ := hno
      obtain ⟨-, before, rfl, hbefore⟩ := htells.ended hcalm code' hr
      rcases List.mem_append.1 hevent with hevent | hevent
      · rw [← mem_codes, hbefore] at hevent
        cases hevent
      · cases List.mem_singleton.1 hevent
        exact hr

/-! ## Shadows -/

/-- Started in `s`, the first action does under a watch what the second one does without.  What is
written down, the result and the state in the end satisfy `T`. -/
def Follows (b : Action (Logged σ Event) α) (a : Action σ α) (s : σ)
    (T : List Event → Except Fault α → σ → Prop) : Prop :=
  ∀ log, ∃ events, b.apply ⟨s, log⟩ = ((a.apply s).1, ⟨(a.apply s).2, log ++ events⟩) ∧
    T events (a.apply s).1 (a.apply s).2

namespace Follows

variable {a : Action σ α} {b : Action (Logged σ Event) α} {s : σ}
  {S : List Event → Except Fault α → σ → Prop} {T : List Event → Except Fault β → σ → Prop}

theorem mono (h : Follows b a s S) {S' : List Event → Except Fault α → σ → Prop}
    (hS : ∀ events r s', S events r s' → S' events r s') : Follows b a s S' := by
  intro log
  obtain ⟨events, hb, hT⟩ := h log
  exact ⟨events, hb, hS _ _ _ hT⟩

theorem pure {x : α} (h : S [] (.ok x) s) : Follows (pure x) (pure x) s S :=
  fun log => ⟨[], by rw [List.append_nil]; rfl, h⟩

theorem throw {e : Fault} (h : S [] (.error e) s) : Follows (throw e) (throw e) s S :=
  fun log => ⟨[], by rw [List.append_nil]; rfl, h⟩

/-- Nothing is written down about what runs under the log. -/
theorem under (h : S [] (a.apply s).1 (a.apply s).2) : Follows a.under a s S :=
  fun log => ⟨[], by rw [List.append_nil]; rfl, h⟩

theorem logging {entry : σ → Except Fault α → σ → Event}
    (h : S [entry s (a.apply s).1 (a.apply s).2] (a.apply s).1 (a.apply s).2) :
    Follows (a.logging entry) a s S :=
  fun _ => ⟨_, rfl, h⟩

theorem get_bind {f : σ → Action σ α} {g : Logged σ Event → Action (Logged σ Event) α}
    (h : ∀ t, t.state = s → Follows (g t) (f s) s S) : Follows (get >>= g) (get >>= f) s S := by
  intro log
  rw [Action.apply_bind, Action.apply_get, Action.apply_bind, Action.apply_get]
  exact h ⟨s, log⟩ rfl log

theorem bind {f : α → Action σ β} {g : α → Action (Logged σ Event) β} (hab : Follows b a s S)
    (hok : ∀ events x s', S events (.ok x) s' →
      Follows (g x) (f x) s' fun events' => T (events ++ events'))
    (herror : ∀ events e s', S events (.error e) s' → T events (.error e) s') :
    Follows (b >>= g) (a >>= f) s T := by
  intro log
  obtain ⟨events, hb, hS⟩ := hab log
  rw [Action.apply_bind, Action.apply_bind, hb]
  rcases ha : a.apply s with ⟨e | x, s'⟩
  · rw [ha] at hS
    exact ⟨events, rfl, herror events e s' hS⟩
  · rw [ha] at hS
    obtain ⟨events', hg, hT⟩ := hok events x s' hS (log ++ events)
    exact ⟨events ++ events', by rw [← List.append_assoc]; exact hg, hT⟩

end Follows

/-- The first action does under a watch what the second one does without, its log tells so, and its
results satisfy `Q`. -/
def ShadowsWith (calm : Prop) (host : σ → Host) (b : Action (Logged σ Event) α) (a : Action σ α)
    (Q : α → Prop) : Prop :=
  ∀ s, Sound calm (host s) → Follows b a s fun events r s' =>
    Tells calm (host s) events r (host s') ∧ ∀ x, r = .ok x → Q x

/-- The same of actions with any results. -/
def Shadows (calm : Prop) (host : σ → Host) (b : Action (Logged σ Event) α) (a : Action σ α) :
    Prop :=
  ShadowsWith calm host b a fun _ => True

variable {host : σ → Host} {Q : α → Prop} {P : β → Prop} {a : Action σ α}
  {b : Action (Logged σ Event) α}

namespace ShadowsWith

theorem pure {x : α} (hx : Q x) :
    ShadowsWith calm host (pure x : Action (Logged σ Event) α) (pure x) Q := by
  refine fun s hs => .pure ⟨.nothing (.nothing hs rfl) fun _ => .ok x, ?_⟩
  rintro _ ⟨⟩
  exact hx

theorem throw {e : Fault} (he : ¬ e.IsExit) :
    ShadowsWith calm host (throw e : Action (Logged σ Event) α) (throw e) Q := by
  refine fun s hs => .throw ⟨.nothing (.nothing hs rfl) fun _ => ?_, nofun⟩
  rintro _ ⟨⟩
  exact he

theorem liftM {r : Except Fault α} (hr : calm → NoExit r) :
    Shadows calm host (liftM r : Action (Logged σ Event) α) (liftM r) := by
  intro s hs log
  rw [Action.apply_liftM, Action.apply_liftM]
  exact ⟨[], by rw [List.append_nil], .nothing (.nothing hs rfl) hr, fun _ _ => trivial⟩

theorem bind {f : α → Action σ β} {g : α → Action (Logged σ Event) β}
    (hab : ShadowsWith calm host b a Q)
    (hfg : ∀ x, Q x → ShadowsWith calm host (g x) (f x) P) :
    ShadowsWith calm host (b >>= g) (a >>= f) P := by
  refine fun s hs => (hab s hs).bind (fun events x s' htells => ?_) fun events e s' htells =>
    ⟨htells.1.error, nofun⟩
  refine (hfg x (htells.2 x rfl) s' htells.1.sound).mono fun events' r s'' htells' => ?_
  exact ⟨htells.1.trans htells'.1, htells'.2⟩

theorem get_bind {f : σ → Action σ α} {g : Logged σ Event → Action (Logged σ Event) α}
    (hfg : ∀ t, Sound calm (host t.state) → ShadowsWith calm host (g t) (f t.state) Q) :
    ShadowsWith calm host (get >>= g) (get >>= f) Q := by
  refine fun s hs => .get_bind fun t ht => ?_
  subst ht
  exact hfg t hs t.state hs

/-- What neither asks for the guest to be ended nor changes what becomes of such a request. -/
theorem under (ha : ∀ s, Sound calm (host s) →
      Tells calm (host s) [] (a.apply s).1 (host (a.apply s).2) ∧
        ∀ x, (a.apply s).1 = .ok x → Q x) :
    ShadowsWith calm host a.under a Q :=
  fun s hs => .under (ha s hs)

end ShadowsWith

namespace Shadows

theorem bind {f : α → Action σ β} {g : α → Action (Logged σ Event) β} (hab : Shadows calm host b a)
    (hfg : ∀ x, ShadowsWith calm host (g x) (f x) P) :
    ShadowsWith calm host (b >>= g) (a >>= f) P :=
  ShadowsWith.bind hab fun x _ => hfg x

theorem discard (hab : Shadows calm host b a) : Shadows calm host (discard b) (discard a) := by
  intro s hs log
  obtain ⟨events, hb, htells, -⟩ := hab s hs log
  rw [Action.apply_discard, Action.apply_discard, hb]
  refine ⟨events, rfl, ?_, fun _ _ => trivial⟩
  rcases ha : a.apply s with ⟨e | x, s'⟩
  · rw [ha] at htells
    exact htells.error
  · rw [ha] at htells
    have hend : Tells calm (host s) (events ++ []) (.ok ()) (host s') :=
      htells.trans (.nothing (.nothing htells.sound rfl) fun _ => .ok ())
    rw [List.append_nil] at hend
    exact hend

theorem modify {f : σ → σ} {g : Logged σ Event → Logged σ Event}
    (hg : ∀ t, g t = ⟨f t.state, t.log⟩) (hwasi : ∀ s, (host (f s)).wasi = (host s).wasi)
    (hsound : ∀ s, Sound calm (host s) → Sound calm (host (f s))) :
    Shadows calm host (modify g : Action (Logged σ Event) Unit) (modify f) := by
  refine fun s hs log => ⟨[], ?_, ?_, fun _ _ => trivial⟩
  · rw [Action.apply_modify, hg, List.append_nil]
    rfl
  · exact .nothing (.nothing (hsound s hs) (hwasi s)) fun _ => .ok ()

end Shadows

/-! ## The rules of suspension -/

section Callback

variable {callback' : Wasm.Callback Store} {callback : Host.Callback}
  (hcallback : ∀ function args,
    Shadows calm (·.host) (callback' function args) (callback function args))
  (c : Controls) (scratch : Suspension.Scratch)

theorem setStash_shadows {stash : Stash (List Wasm.Value)}
    (hstash : ∀ o, stash = .pending o → calm → NoExit o) :
    Shadows calm (·.host)
      (modify ((Host.protocol .logged callback' c scratch).setStash stash) : Action Store Unit)
      (modify ((Host.protocol .whole callback c scratch).setStash stash)) :=
  .modify (fun _ => rfl) (fun _ => rfl) fun _ _ => hstash

theorem stashPending_shadows {outcome : Except Fault (List Wasm.Value)}
    (ho : calm → NoExit outcome) :
    Shadows calm (·.host) ((Host.protocol .logged callback' c scratch).stashPending outcome)
      ((Host.protocol .whole callback c scratch).stashPending outcome) := by
  refine .get_bind fun t _ => ?_
  change Shadows calm _ (if t.state.host.stash.isEmpty then _ else _)
    (if t.state.host.stash.isEmpty then _ else _)
  split
  · refine setStash_shadows c scratch fun o heq => ?_
    cases heq
    exact ho
  · exact .throw (by rintro ⟨code, ⟨⟩⟩)

theorem takePending_shadows :
    ShadowsWith calm (·.host) (Host.protocol .logged callback' c scratch).takePending
      (Host.protocol .whole callback c scratch).takePending fun o => calm → NoExit o := by
  refine .get_bind fun t ht => ?_
  have hsame : (Host.protocol .logged callback' c scratch).stash t = t.state.host.stash := rfl
  have hplain : (Host.protocol .whole callback c scratch).stash t.state = t.state.host.stash := rfl
  rw [hsame, hplain]
  cases hstash : t.state.host.stash with
  | pending outcome =>
    exact (setStash_shadows c scratch nofun).bind fun _ => .pure (ht outcome hstash)
  | empty | resolved v => exact .throw (by rintro ⟨code, ⟨⟩⟩)

theorem takeResolved_shadows :
    Shadows calm (·.host) (Host.protocol .logged callback' c scratch).takeResolved
      (Host.protocol .whole callback c scratch).takeResolved := by
  refine .get_bind fun t _ => ?_
  have hsame : (Host.protocol .logged callback' c scratch).stash t = t.state.host.stash := rfl
  have hplain : (Host.protocol .whole callback c scratch).stash t.state = t.state.host.stash := rfl
  rw [hsame, hplain]
  cases t.state.host.stash with
  | resolved v => exact (setStash_shadows c scratch nofun).bind fun _ => .pure trivial
  | empty | pending o => exact .throw (by rintro ⟨code, ⟨⟩⟩)

include hcallback

theorem askState_shadows :
    Shadows calm (·.host) (Host.askState callback' c) (Host.askState callback c) := by
  refine (hcallback _ _).bind fun values => ?_
  rcases values with _ | ⟨value, _ | ⟨_, _⟩⟩
  · exact .throw (Wasm.not_isExit_trap _)
  · cases value with
    | i32 code => exact .liftM fun _ => Suspension.State.noExit_ofCode _
    | _ => exact .throw (Wasm.not_isExit_trap _)
  · cases value <;> exact .throw (Wasm.not_isExit_trap _)

theorem expect_shadows (expected : Suspension.State) :
    Shadows calm (·.host) ((Host.protocol .logged callback' c scratch).expect expected)
      ((Host.protocol .whole callback c scratch).expect expected) := by
  refine (askState_shadows hcallback c).bind fun actual => ?_
  split
  · exact .throw (by rintro ⟨code, ⟨⟩⟩)
  · exact .pure trivial

theorem intercept_shadows {call' : Action Store (HostValue (List Wasm.Value))}
    {call : Action Host.Store (HostValue (List Wasm.Value))}
    (hcall : ShadowsWith calm (·.host) call' call fun answer =>
      ∀ o, answer = .pending o → calm → NoExit o) :
    Shadows calm (·.host) ((Host.protocol .logged callback' c scratch).intercept call')
      ((Host.protocol .whole callback c scratch).intercept call) := by
  refine (askState_shadows hcallback c).bind fun state => ?_
  split
  · refine (Shadows.discard (hcallback _ _)).bind fun _ => ?_
    exact (takeResolved_shadows c scratch).bind fun _ => .pure trivial
  · refine (expect_shadows hcallback c scratch _).bind fun _ => hcall.bind fun answer hanswer => ?_
    cases answer with
    | ready value => exact .pure trivial
    | pending outcome =>
      refine (stashPending_shadows c scratch (hanswer outcome rfl)).bind fun _ => ?_
      exact (Shadows.discard (hcallback _ _)).bind fun _ => .pure trivial

/-- What an export awaits would not end the guest. -/
theorem settle_shadows (result : R) :
    ShadowsWith calm (·.host) ((Host.protocol .logged callback' c scratch).settle result)
      ((Host.protocol .whole callback c scratch).settle result) fun d =>
        ∀ o, d = .awaiting o → calm → NoExit o := by
  refine (askState_shadows hcallback c).bind fun state => ?_
  split
  · refine (Shadows.discard (hcallback _ _)).bind fun _ => ?_
    refine (takePending_shadows c scratch).bind fun outcome ho => .pure fun o heq => ?_
    cases heq
    exact ho
  · exact (expect_shadows hcallback c scratch _).bind fun _ => .pure nofun

variable {call' : Action Store R} {call : Action Host.Store R}
  (hcall : Shadows calm (·.host) call' call)

include hcall

theorem resume_shadows {outcome : Except Fault (List Wasm.Value)} (ho : calm → NoExit outcome) :
    ShadowsWith calm (·.host) ((Host.protocol .logged callback' c scratch).resume call' outcome)
      ((Host.protocol .whole callback c scratch).resume call outcome) fun d =>
        ∀ o, d = .awaiting o → calm → NoExit o := by
  refine (ShadowsWith.liftM ho).bind fun value => ?_
  refine (setStash_shadows c scratch nofun).bind fun _ => ?_
  refine (expect_shadows hcallback c scratch _).bind fun _ => ?_
  refine (Shadows.discard (hcallback _ _)).bind fun _ => ?_
  exact hcall.bind fun result => settle_shadows hcallback c scratch result

theorem follow_shadows (rounds : Nat) {d : Suspension.Drive R (List Wasm.Value)}
    (hd : ∀ o, d = .awaiting o → calm → NoExit o) :
    Shadows calm (·.host) ((Host.protocol .logged callback' c scratch).follow call' rounds d)
      ((Host.protocol .whole callback c scratch).follow call rounds d) := by
  induction rounds generalizing d with
  | zero =>
    cases d with
    | finished result => exact .pure trivial
    | awaiting outcome => exact .throw (Wasm.not_isExit_trap _)
  | succ rounds ih =>
    cases d with
    | finished result => exact .pure trivial
    | awaiting outcome =>
      exact (resume_shadows hcallback c scratch hcall (hd outcome rfl)).bind fun d hd => ih hd

theorem drive_shadows (rounds : Nat) :
    Shadows calm (·.host) ((Host.protocol .logged callback' c scratch).drive rounds call')
      ((Host.protocol .whole callback c scratch).drive rounds call) := by
  have hbegin : ShadowsWith calm (·.host) ((Host.protocol .logged callback' c scratch).begin call')
      ((Host.protocol .whole callback c scratch).begin call) fun d =>
        ∀ o, d = .awaiting o → calm → NoExit o := by
    refine (expect_shadows hcallback c scratch _).bind fun _ => ?_
    exact hcall.bind fun result => settle_shadows hcallback c scratch result
  exact hbegin.bind fun d hd => follow_shadows hcallback c scratch hcall rounds hd

end Callback

end Watch

end GuestHost
