import GuestHost.CommandLine
import GuestHost.Proofs.Host.Exit
import GuestHost.Proofs.Wasi.Output

/-!
# What a run has printed when it ends

`CommandLine.ended` is how the guest of a run ends, and the instance that it leaves behind.  The
outputs are drained if the run has an exit code to report, or if a command was entered,
`ended_drained`; this is so with any engine, `runGuest_output`.  A run that calls an export and
fails does not flush: what a `stutterer` has written is not printed, `say_loses`.
-/

namespace GuestHost

namespace CommandLine

/-- The streams of a run. -/
def streams (stdin : Bytes) : Table.StandardStreams :=
  .over (.ofBytes stdin) stdoutSink stderrSink

/-- How the guest of a run ends. -/
def ended (o : RunOptions) (i : Instance) : Ending × Instance := runGuest .plain o i

variable {o : RunOptions} {c : Config} {m : GuestModule} {stdin : Bytes} {i : Instance}

/-- A run prints the lines that were emitted by the end of its guest. -/
theorem runModule_eq (h : Instance.create c m.code imports (streams stdin) = .ok i) :
    runModule o c m stdin = .ofRun (ended o i).2.wasi.emitted (ended o i).1 := by
  unfold streams at h
  simp only [runModule, h]
  rfl

theorem imports_calm : ∀ i ∈ imports.entries, i.Calm := by
  intro i hi
  have hsleep : i = sleepImport := List.mem_singleton.1 hi
  subst hsleep
  rintro args _ ⟨⟩
  exact .ok []

/-! ## Commands -/

/-- The run goes into the command of its module. -/
def Enters (o : RunOptions) (i : Instance) : Prop :=
  o.invoke = none ∧ (i.code.function? commandEntry).isSome ∧ (i.code.export? reactorEntry).isNone

variable (E : Wasm.Engine Host)

open Instance (Manner)

theorem apply_start (hstarted : i.started = false) :
    (Manner.on E).start.apply i =
      if (i.code.function? commandEntry).isNone then
        (.error (.missingExport commandEntry), { i with started := true })
      else if (i.code.export? reactorEntry).isSome then
        (.error (.unexpectedExport reactorEntry), { i with started := true })
      else (Manner.on E).runCommand.apply { i with started := true } := by
  have hmark : Instance.markStarted.apply i = (.ok (), { i with started := true }) := by
    simp only [Instance.markStarted, Action.apply_bind, Action.apply_get, hstarted,
      Bool.false_eq_true, if_false]
    rfl
  unfold Manner.start
  rw [Action.within_whole, Action.apply_bind, hmark]
  simp only [Action.apply_bind, Action.apply_get]
  by_cases hentry : (i.code.function? commandEntry).isNone = true
  · simp only [hentry, if_true]
    rfl
  · by_cases hreactor : (i.code.export? reactorEntry).isSome = true
    · simp only [hentry, hreactor, if_true]
      rfl
    · simp only [hentry, hreactor]
      rfl

/-- A run that is to run a command leaves what starting the command leaves. -/
theorem runGuest_of_invoke_none (h : o.invoke = none) :
    (runGuest (.on E) o i).2 = ((Manner.on E).start.apply i).2 ∧
      ((∃ code printed, (runGuest (.on E) o i).1 = .ok (code, printed)) →
        ∃ outcome, ((Manner.on E).start.apply i).1 = .ok outcome) := by
  simp only [runGuest, h, runCommand]
  rcases (Manner.on E).start.apply i with ⟨_ | outcome, i'⟩
  · exact ⟨rfl, by rintro ⟨code, printed, ⟨⟩⟩⟩
  · exact ⟨rfl, fun _ => ⟨outcome, rfl⟩⟩

/-- A command that is entered leaves drained outputs, however it ends. -/
theorem drained_of_enters (h : Enters o i) (hstarted : i.started = false) :
    (runGuest (.on E) o i).2.Drained := by
  obtain ⟨hinvoke, hentry, hreactor⟩ := h
  rw [(runGuest_of_invoke_none E hinvoke).1, apply_start E hstarted]
  simp only [Option.isNone_iff_eq_none, Option.isSome_iff_ne_none] at hentry hreactor ⊢
  rw [if_neg hentry, if_neg (not_not.2 hreactor)]
  exact Instance.flush_drained _

/-- A command that is not entered fails, and leaves the outputs as they were. -/
theorem unchanged_of_not_enters (hinvoke : o.invoke = none) (h : ¬ Enters o i)
    (hstarted : i.started = false) :
    (runGuest (.on E) o i).2.wasi = i.wasi ∧
      ∀ code printed, (runGuest (.on E) o i).1 ≠ .ok (code, printed) := by
  obtain ⟨hstate, hok⟩ := runGuest_of_invoke_none (i := i) E hinvoke
  have hstart : ((Manner.on E).start.apply i).2.wasi = i.wasi ∧
      ∀ outcome, ((Manner.on E).start.apply i).1 ≠ .ok outcome := by
    rw [apply_start E hstarted]
    by_cases hentry : (i.code.function? commandEntry).isNone = true
    · rw [if_pos hentry]
      exact ⟨rfl, nofun⟩
    · by_cases hreactor : (i.code.export? reactorEntry).isSome = true
      · rw [if_neg hentry, if_pos hreactor]
        exact ⟨rfl, nofun⟩
      · refine absurd ⟨hinvoke, ?_, ?_⟩ h
        · simpa [Option.isSome_iff_ne_none] using hentry
        · simpa using hreactor
  rw [hstate]
  refine ⟨hstart.1, fun code printed heq => ?_⟩
  obtain ⟨outcome, houtcome⟩ := hok ⟨code, printed, heq⟩
  exact hstart.2 outcome houtcome

/-! ## Calls of an export -/

/-- A step of a call that did not succeed has an exit code to report only if the guest asked to be
ended. -/
theorem isExit_of_interrupted {context : String} {f : Fault} {code : Int32} {printed : List String}
    (h : interrupted context f = .ok (code, printed)) : f.IsExit := by
  cases f <;> first | exact ⟨_, rfl⟩ | cases h

/-- A call of an export leaves at most unfinished lines, and drained outputs if it has an exit code
to report. -/
theorem runExport_output {ds : Definitions} (h : Instance.Calm m.code imports ds i) (name : String)
    (params : List Int32) :
    (runExport (.on E) name params i).2.wasi.Unfinished ∧
      ((∃ code printed, (runExport (.on E) name params i).1 = .ok (code, printed)) →
        (runExport (.on E) name params i).2.Drained) := by
  have hbegin := Instance.begin_endsIn imports_calm E i h
  unfold runExport
  dsimp only
  rcases hb : (Manner.on E).begin.apply i with ⟨f | _, i₁⟩
  · rw [hb] at hbegin
    refine ⟨hbegin.1.host.unfinished, ?_⟩
    rintro ⟨code, printed, hok⟩
    exact hbegin.2.1 f rfl (isExit_of_interrupted hok)
  · rw [hb] at hbegin
    have hcall := Instance.call_endsIn imports_calm E name
      (params.map fun n => Wasm.Value.i32 n.toUInt32) i₁ hbegin.1
    dsimp only
    generalize ((Manner.on E).call name (params.map fun n => Wasm.Value.i32 n.toUInt32)).apply i₁ =
      answer at hcall ⊢
    obtain ⟨f | values, i₂⟩ := answer
    · refine ⟨hcall.1.host.unfinished, ?_⟩
      rintro ⟨code, printed, hok⟩
      exact hcall.2.1 f rfl (isExit_of_interrupted hok)
    · exact ⟨(Instance.flush_drained i₂).unfinished, fun _ => Instance.flush_drained i₂⟩

/-- Whatever engine runs the guest, nothing is pending at the end of a run that has an exit code to
report or has entered a command.  Otherwise at most one unfinished line is pending at each output;
if it was to be a command, what its start function has left. -/
theorem runGuest_output {ds : Definitions} (h : Instance.Calm m.code imports ds i)
    (hstarted : i.started = false) :
    ((∃ code printed, (runGuest (.on E) o i).1 = .ok (code, printed)) ∨ Enters o i →
        (runGuest (.on E) o i).2.Drained) ∧
      (runGuest (.on E) o i).2.wasi.Unfinished ∧
      (o.invoke = none → ¬ Enters o i → (runGuest (.on E) o i).2.wasi = i.wasi) := by
  by_cases henters : Enters o i
  · have hdrained := drained_of_enters E henters hstarted
    exact ⟨fun _ => hdrained, hdrained.unfinished, fun _ hnot => absurd henters hnot⟩
  · cases hinvoke : o.invoke with
    | none =>
      obtain ⟨hwasi, hfails⟩ := unchanged_of_not_enters E hinvoke henters hstarted
      refine ⟨?_, hwasi ▸ h.host.unfinished, fun _ _ => hwasi⟩
      rintro (⟨code, printed, hok⟩ | henters')
      · exact absurd hok (hfails code printed)
      · exact absurd henters' henters
    | some name =>
      obtain ⟨hunfinished, hdrained⟩ := runExport_output E h name o.params
      simp only [runGuest, hinvoke]
      exact ⟨fun h => h.elim hdrained fun h => absurd h henters, hunfinished, nofun⟩

/-! ## A guest that does not end its line -/

/-- A guest with one export.  It writes the two bytes at 24 to its output, without a newline, and
then traps. -/
def stutterer (name : String) : Wasm.Module where
  imports := [(Definitions.wasiKey "fd_write", .function ⟨[.i32, .i32, .i32, .i32], [.i32]⟩)]
  memories := [{ min := 1 }]
  exports := [(memoryName, .memory 0), (name, .function 1)]
  data := [⟨16, [24, 0, 0, 0, 2, 0, 0, 0, 104, 105]⟩]
  functions :=
    [⟨⟨[], []⟩, [], [.const (.i32 1), .const (.i32 16), .const (.i32 1), .const (.i32 8), .call 0,
      .drop, .unreachable]⟩]

/-- The write that it makes. -/
def stutter : WriteCall where
  channel := .out
  memory := (Memory.blank 65536).overlay 16 [24, 0, 0, 0, 2, 0, 0, 0, 104, 105]
  iovs := 16
  iovsLen := 1
  nwritten := 8

/-- What stands behind the calls of the guest after the write. -/
def stuttered : Wasi := WriteRun.silent.setStream 1 (.output ⟨stdoutSink, [104, 105]⟩)

/-- The guest after it was set up. -/
def stuttering (name : String) : Instance where
  code := stutterer name
  environment :=
    Instance.linked (stutterer name) [(WasiFunction.ofFour "fd_write" .fdWrite).link .plain]
      ({} : Config).maxMemory.toNat
  store :=
    { memory := some stutter.memory
      host := { wasi := WriteRun.silent, sharesMemory := true } }

/-- The guest after it has trapped. -/
def stopped (name : String) : Instance :=
  { stuttering name with
    store :=
      { memory := some (stutter.memory.overlay 8 (.ofU32 2))
        host := { wasi := stuttered, sharesMemory := true } } }

theorem create_stutterer {name : String}
    (h : Suspension.Controls.find (stutterer name) = .ok none) :
    Instance.create {} (stutterer name) imports (streams []) = .ok (stuttering name) := by
  have hwrite : (Memory.blank 65536).write 16 [24, 0, 0, 0, 2, 0, 0, 0, 104, 105] =
      .ok stutter.memory := Memory.write_of_inBounds (Memory.inBounds_blank (by decide))
  have hmemory : Instance.initialMemory (stutterer name) ({} : Config).maxMemory.toNat =
      .ok (some stutter.memory) := Instance.initialMemory_eq rfl rfl (by decide) hwrite
  have hlink : Instance.link {} (stutterer name) imports (streams []) =
      .ok (stuttering name) := by
    have himported : Definitions.resolve
        (Definitions.wasi ++ [⟨sleepImport.key, sleepImport.link .plain⟩]) (stutterer name) =
          .ok [(WasiFunction.ofFour "fd_write" .fdWrite).link .plain] := by rfl
    exact Instance.link_eq WriteRun.ofConfig_silent (by rfl) rfl himported hmemory
  exact Instance.create_of_find_none hlink rfl h

/-! ### The write -/

theorem inBounds_stutter {start len : Nat} (h : start + len ≤ 65536) :
    stutter.memory.InBounds start len :=
  (Memory.inBounds_blank h).of_size (Memory.size_overlay (Memory.inBounds_blank (by decide)))

theorem slice_stutter {k n : Nat} (h : k + n ≤ 10) :
    stutter.memory.slice (16 + k) n =
      (([24, 0, 0, 0, 2, 0, 0, 0, 104, 105] : Bytes).drop k).take n :=
  Memory.slice_overlay_within (Memory.inBounds_blank (by decide)) h

theorem list_stutter :
    stutter.memory.readIovecs stutter.iovs.toNat stutter.iovsLen = .ok [⟨24, 2⟩] := by
  have hslice : stutter.memory.slice 16 8 = [24, 0, 0, 0, 2, 0, 0, 0] :=
    slice_stutter (k := 0) (by decide)
  have hread : stutter.memory.read 16 8 = .ok [24, 0, 0, 0, 2, 0, 0, 0] := by
    rw [Memory.read, if_pos (inBounds_stutter (by decide)), hslice]
  have hlen : Iovec.width * stutter.iovsLen.toNat = 8 := by decide
  have hstart : stutter.iovs.toNat = 16 := by decide
  simp only [Memory.readIovecs, hlen, hstart, hread]
  rfl

theorem entries_stutter : stutter.entries = [⟨24, 2⟩] := Memory.listed_eq list_stutter

theorem bytes_stutter : stutter.bytes = [104, 105] := by
  have hslice : stutter.memory.slice 24 2 = [104, 105] := slice_stutter (k := 8) (by decide)
  rw [WriteCall.bytes, entries_stutter]
  change stutter.memory.slice 24 2 ++ [] = _
  rw [hslice]
  rfl

theorem possible_stutter : stutter.Possible where
  iovs := by decide
  nwritten := by decide
  list := by rw [entries_stutter, list_stutter]
  buffers := by
    rw [entries_stutter]
    simp only [List.forall_mem_singleton]
    exact fun _ => inBounds_stutter (by decide)
  fits := by
    rw [entries_stutter]
    decide

theorem run_stutter :
    Syscall.run WriteRun.silent stutter.memory (.fdWrite 1 16 1 8) =
      ⟨.success, stuttered, stutter.memory.overlay 8 (.ofU32 2)⟩ := by
  have hlookup : WriteRun.silent.table.lookup 1 (.single .fdWrite) =
      .ok (.standard .stdout 1 (.output ⟨stdoutSink, []⟩)) := by rfl
  have hrun := WriteCall.run_of_possible possible_stutter (inBounds_stutter (by decide)) hlookup rfl
  rw [bytes_stutter] at hrun
  exact hrun

/-! ### The call -/

/-- What is left to run after the write. -/
def afterwards : Wasm.Activation where
  arity := 0
  locals := #[]
  code := [.drop, .unreachable]

theorem exec_stutterer (name : String) (n : Nat) :
    (Wasm.exec .plain (stuttering name).environment (n + 10) (.calling 1 [] [])).apply
      (stuttering name).store = (.error (.trap .unreachable), (stopped name).store) := by
  have hbegin : (Wasm.exec .plain (stuttering name).environment (n + 10) (.calling 1 [] [])).apply
      (stuttering name).store = (Wasm.exec .plain (stuttering name).environment (n + 4)
        (.calling 0 [.i32 1, .i32 16, .i32 1, .i32 8] [afterwards])).apply
          (stuttering name).store := by
    rw [Wasm.exec_calling_guest (by rfl) rfl, Wasm.exec_running (by rfl),
      Wasm.exec_running (by rfl), Wasm.exec_running (by rfl), Wasm.exec_running (by rfl),
      Wasm.exec_running (by rfl)]
    rfl
  have hwrite (callback : Host.Callback) :
      (((WasiFunction.ofFour "fd_write" .fdWrite).link .plain).call callback
        [.i32 1, .i32 16, .i32 1, .i32 8]).apply (stuttering name).store =
          (.ok [.i32 0], (stopped name).store) := by
    rw [WasiFunction.apply_call_link rfl rfl rfl rfl run_stutter]
    rfl
  have hend : (Wasm.exec .plain (stuttering name).environment (n + 3)
      (.returning [.i32 0] [afterwards])).apply (stopped name).store =
        (.error (.trap .unreachable), (stopped name).store) := by rfl
  rw [hbegin, Wasm.exec_calling_host (by rfl) (hwrite _), hend]

theorem callOnce_stuttering (name : String) :
    ((stuttering name).callOnce (stuttering name).invoke 1 []).apply (stuttering name).store =
      (.error (.trap .unreachable), (stopped name).store) := by
  have htype : (stuttering name).code.functionType? 1 = some ⟨[], []⟩ := rfl
  have hargs : Instance.checkArguments ⟨[], []⟩ [] = .ok () := rfl
  have hlimit : Wasm.stepLimit = Wasm.stepLimit - 10 + 10 := by decide
  simp only [Instance.callOnce, htype, hargs, Action.apply_bind, Action.apply_liftM,
    Instance.invoke, Wasm.invoke]
  rw [hlimit]
  exact exec_stutterer name _

/-- A run that calls the export `say`. -/
def saying : RunOptions := { path := "m.wasm", invoke := some "say" }

theorem ended_saying :
    ended saying (stuttering "say") =
      (.error ⟨"call to say failed", some (.trap .unreachable)⟩,
        { stopped "say" with started := true }) := by
  have hbegin : Instance.begin.apply (stuttering "say") =
      (.ok (), { stuttering "say" with started := true }) := by rfl
  have hcall : (Instance.call "say" []).apply { stuttering "say" with started := true } =
      (.error (.trap .unreachable), { stopped "say" with started := true }) := by
    have hfunction : (stuttering "say").code.function? "say" = some 1 := by rfl
    have hcontrols : (stuttering "say").store.host.controls = none := rfl
    have honce : Instance.callOnce { stuttering "say" with started := true }
        (Instance.invoke { stuttering "say" with started := true }) 1 [] =
          (stuttering "say").callOnce (stuttering "say").invoke 1 [] := rfl
    simp only [Instance.Manner.call, Action.apply_bind, Action.apply_get, hfunction, hcontrols,
      honce, Action.within, Action.apply_of, callOnce_stuttering]
    rfl
  simp only [ended, runGuest, saying, runExport, hbegin, List.map_nil, hcall]
  rfl

/-! ## Runs -/

/-- What a run prints is what its guest had emitted by its end.  Nothing is pending then if there is
an exit code to report or a command was entered.  Otherwise at most one unfinished line is pending
at each output; if it was to be a command, what its start function has left. -/
theorem ended_drained (h : Instance.create c m.code imports (streams stdin) = .ok i) :
    runModule o c m stdin = .ofRun (ended o i).2.wasi.emitted (ended o i).1 ∧
      ((∃ code printed, (ended o i).1 = .ok (code, printed)) ∨ Enters o i →
        (ended o i).2.Drained) ∧
      (ended o i).2.wasi.Unfinished ∧
      (o.invoke = none → ¬ Enters o i → (ended o i).2.wasi = i.wasi) := by
  obtain ⟨⟨ds, hcalm⟩, hstarted⟩ := Instance.create_calm imports_calm h
  exact ⟨runModule_eq h, runGuest_output .stepping hcalm hstarted⟩

/-- The command that does not end its line leaves drained outputs when it traps. -/
theorem ended_drained_stutterer :
    Instance.create {} (stutterer commandEntry) imports (streams []) =
        .ok (stuttering commandEntry) ∧
      Enters { path := "m.wasm" } (stuttering commandEntry) ∧
      (ended { path := "m.wasm" } (stuttering commandEntry)).2.Drained := by
  have hcreate : Instance.create {} (stutterer commandEntry) imports (streams []) =
      .ok (stuttering commandEntry) := create_stutterer (by rfl)
  have henters : Enters { path := "m.wasm" } (stuttering commandEntry) :=
    ⟨rfl, by decide +kernel, by decide +kernel⟩
  have hdrained := (ended_drained (o := { path := "m.wasm" }) (m := ⟨"m", _⟩) hcreate).2.1
  exact ⟨hcreate, henters, hdrained (.inr henters)⟩

/-- As an export that is called, the same guest leaves its line pending, and nothing is printed. -/
theorem say_loses :
    Instance.create {} (stutterer "say") imports (streams []) = .ok (stuttering "say") ∧
      (ended saying (stuttering "say")).1 =
        .error ⟨"call to say failed", some (.trap .unreachable)⟩ ∧
      (ended saying (stuttering "say")).2.wasi.pending? 1 = some [104, 105] ∧
      ¬ (ended saying (stuttering "say")).2.Drained ∧
      (runModule saying {} ⟨"m", stutterer "say"⟩ []).stdout = [] := by
  have hcreate : Instance.create {} (stutterer "say") imports (streams []) =
      .ok (stuttering "say") := create_stutterer (by rfl)
  have hreport : runModule saying {} ⟨"m", stutterer "say"⟩ [] =
      .ofRun (ended saying (stuttering "say")).2.wasi.emitted
        (ended saying (stuttering "say")).1 := runModule_eq hcreate
  rw [hreport, ended_saying]
  have houtput : ({ stopped "say" with started := true } : Instance).wasi.table.get? 1 =
      some (.standard .stdout 1 (.output ⟨stdoutSink, [104, 105]⟩)) := by rfl
  refine ⟨hcreate, rfl, by rfl, fun hdrained => ?_, by rfl⟩
  cases hdrained 1 _ houtput

end CommandLine

end GuestHost
