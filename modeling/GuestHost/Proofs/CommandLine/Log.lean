import GuestHost.Proofs.CommandLine.Output
import GuestHost.Proofs.Host.StartUp

/-!
# Runs under a watch

A module is run under a watch as it is run without, and `CommandLine.watched` gives the report of
the run together with the log of its guest, `watched_fst`.  Whatever comes of the run, the system
calls in the log were answered by a host that hands over the strings of the configuration,
`answers_watched`.

That the guest itself makes these calls is said by `Instance.function_of_import`: what a module
imports as a function of WASI is the function of that name.
-/

namespace GuestHost

open Watch (Event)

/-! ## What is imported -/

namespace WasiFunction

/-- A function of WASI comes from its key. -/
theorem originOf {f : WasiFunction} (hf : f ∈ all) (imports : ImportSet)
    (type : Wasm.FunctionType) :
    Watch.Origin.of imports (Definitions.wasiKey f.name) type = .wasi f := by
  simp only [all, List.mem_cons, List.not_mem_nil, or_false] at hf
  rcases hf with rfl | rfl | rfl | rfl | rfl | rfl | rfl | rfl | rfl | rfl | rfl | rfl <;> rfl

end WasiFunction

namespace Instance

variable {c : Config} {m : Wasm.Module} {imports : ImportSet} {streams : Table.StandardStreams}
  {i : Instance}

/-- What a module imports under the key of a function of WASI is this function, and the guest calls
it by the number of the import. -/
theorem function_of_import (h : create c m imports streams = .ok i) {f : WasiFunction}
    (hf : f ∈ WasiFunction.all) {n : Nat} {type : Wasm.FunctionType}
    (hn : m.imports[n]? = some (Definitions.wasiKey f.name, .function type)) :
    i.environment.functions[n]? = some (.host (f.link .plain)) := by
  obtain ⟨i₀, -, store, hlink, -, -, rfl⟩ := create_cases h
  have hfunction := Watch.function_of_link hlink hn
  rw [WasiFunction.originOf hf] at hfunction
  exact hfunction

end Instance

/-! ## Runs -/

namespace CommandLine

/-- Runs a module under a watch, and gives the report and what was written down. -/
def watched (o : RunOptions) (c : Config) (m : GuestModule) (stdin : Bytes) :
    Report × List Event :=
  match Watch.create c m.code imports (streams stdin) with
  | (.error r, log) =>
    (.ofRun r.emitted (.error ⟨"failed to instantiate module", r.cause⟩), log)
  | (.ok i, log) =>
    let (ending, t) := runGuest (Watch.exports (.of imports i)) o ⟨i, log⟩
    (.ofRun t.state.wasi.emitted ending, t.log)

variable {o : RunOptions} {c : Config} {m : GuestModule} {stdin : Bytes} {i : Instance}
  {w : Watch} {calm : Prop}

/-- A watch changes nothing about how a guest ends. -/
theorem runGuest_follows (hi : w.On calm i) (o : RunOptions) (log : List Event) :
    ∃ events, runGuest w.exports o ⟨i, log⟩ =
        ((ended o i).1, ⟨(ended o i).2, log ++ events⟩) ∧
      Watch.Answers i.wasi.args i.wasi.env events := by
  rw [ended]
  unfold runGuest
  cases o.invoke with
  | none =>
    obtain ⟨events, hstart, hstarts⟩ := Watch.start_follows hi log
    refine ⟨events, ?_, hstarts.recounts.answers⟩
    simp only [runCommand, hstart]
    rcases Instance.start.apply i with ⟨_ | outcome, i'⟩ <;> rfl
  | some name =>
    obtain ⟨events, hbegin, hstarts⟩ := Watch.begin_follows hi log
    simp only [runExport, hbegin]
    rcases hb : Instance.begin.apply i with ⟨f | _, i₁⟩
    · rw [hb] at hstarts
      exact ⟨events, rfl, hstarts.recounts.answers⟩
    · rw [hb] at hstarts
      have hon : w.On calm i₁ := hstarts.on hi
      obtain ⟨events', hcall, hleaves⟩ := Watch.call_follows hon name
        (o.params.map fun n => Wasm.Value.i32 n.toUInt32) (log ++ events)
      refine ⟨events ++ events', ?_, hstarts.recounts.answers.append ?_⟩
      · dsimp only
        rw [hcall, ← List.append_assoc]
        rcases (Instance.call name _).apply i₁ with ⟨f | values, i₂⟩ <;> rfl
      · have hanswers := hleaves.tells.answers
        rw [hstarts.recounts.args, hstarts.recounts.env] at hanswers
        exact hanswers

theorem watched_of_create (h : Instance.create c m.code imports (streams stdin) = .ok i) :
    ∃ events, watched o c m stdin =
        (runModule o c m stdin, (Watch.create c m.code imports (streams stdin)).2 ++ events) ∧
      Watch.Answers (.ofTexts c.args) (.ofTexts (c.env.map Wasi.envEntry)) events := by
  obtain ⟨hon, -, -, -, hargs, henv⟩ := Watch.created h
  obtain ⟨events, hrun, hanswers⟩ := runGuest_follows hon o
    (Watch.create c m.code imports (streams stdin)).2
  rw [hargs, henv] at hanswers
  have hcreate : Watch.create c m.code imports (streams stdin) =
      (.ok i, (Watch.create c m.code imports (streams stdin)).2) :=
    Prod.ext ((Watch.create_fst c m.code imports (streams stdin)).trans h) rfl
  refine ⟨events, ?_, hanswers⟩
  rw [watched, hcreate]
  simp only [hrun, runModule_eq h]

theorem watched_of_refused {r : Refusal}
    (h : Instance.create c m.code imports (streams stdin) = .error r) :
    watched o c m stdin =
      (runModule o c m stdin, (Watch.create c m.code imports (streams stdin)).2) := by
  have hcreate : Watch.create c m.code imports (streams stdin) =
      (.error r, (Watch.create c m.code imports (streams stdin)).2) :=
    Prod.ext ((Watch.create_fst c m.code imports (streams stdin)).trans h) rfl
  unfold streams at h
  rw [watched, hcreate]
  simp only [runModule, h]

/-- A run under a watch comes to what it comes to without. -/
theorem watched_fst (o : RunOptions) (c : Config) (m : GuestModule) (stdin : Bytes) :
    (watched o c m stdin).1 = runModule o c m stdin := by
  cases h : Instance.create c m.code imports (streams stdin) with
  | error r => rw [watched_of_refused h]
  | ok i =>
    obtain ⟨events, hwatched, -⟩ := watched_of_create (o := o) h
    rw [hwatched]

/-- All system calls in a run are answered by a host that hands over the strings of its
configuration. -/
theorem answers_watched (o : RunOptions) (c : Config) (m : GuestModule) (stdin : Bytes) :
    Watch.Answers (.ofTexts c.args) (.ofTexts (c.env.map Wasi.envEntry))
      (watched o c m stdin).2 := by
  have hcreate := Watch.create_answers c m.code imports (streams stdin)
  cases h : Instance.create c m.code imports (streams stdin) with
  | error r =>
    rw [watched_of_refused h]
    exact hcreate
  | ok i =>
    obtain ⟨events, hwatched, hanswers⟩ := watched_of_create (o := o) h
    rw [hwatched]
    exact hcreate.append hanswers

end CommandLine

end GuestHost
