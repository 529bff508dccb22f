import GuestHost.Proofs.CommandLine.Log
import GuestHost.Proofs.Text.Utf8
import GuestHost.Proofs.Wasi.Strings
import Mathlib.Data.List.TakeDrop

/-!
# What a guest is told on the command line

Variables are given as texts, split into pairs, and joined again for the guest.  The joining undoes
the split, `RunOptions.splitPairs_of_isPair`, so a variable arrives as it was typed.  A text that is
no pair ends the run before a module is looked at.

A run under a watch has a log in which each system call stands with the memory before and after.  A
guest `Gets` texts if it finds them in its memory after every call for them that has room, and the
guest of a run gets what its command line and its configuration say,
`CommandLine.run_passesStrings`.
-/

namespace GuestHost

open StringBlock (Handed room)
open Watch (Event)

/-! ## Pairs -/

namespace CommandLine

namespace RunOptions

/-- A text that can be split: there is a sign of equality in it, but not in front. -/
def IsPair (text : String) : Prop := '=' ∈ text.toList ∧ text.toList.head? ≠ some '='

instance : DecidablePred IsPair := fun _ => inferInstanceAs (Decidable (_ ∧ _))

variable {text : String} {texts : List String}

/-- The first sign of equality splits a pair, wherever others follow. -/
theorem splitPair?_ofList {key : List Char} (hkey : key ≠ []) (hfree : '=' ∉ key)
    (value : List Char) :
    splitPair? (.ofList (key ++ '=' :: value)) = some (.ofList key, .ofList value) := by
  have hstop : ∀ c ∈ key, (c != '=') = true := by
    intro c hc
    simpa using fun heq : c = '=' => hfree (heq ▸ hc)
  rw [splitPair?, String.toList_ofList, List.span_eq_takeWhile_dropWhile,
    List.takeWhile_append_of_pos hstop, List.dropWhile_append_of_pos hstop]
  simp [hkey]

theorem splitPair?_of_isPair (h : IsPair text) :
    ∃ pair, splitPair? text = some pair ∧ Wasi.envEntry pair = text := by
  obtain ⟨key, value, htext, hfree⟩ := List.eq_append_cons_of_mem h.1
  have hkey : key ≠ [] := by
    rintro rfl
    exact h.2 (by rw [htext]; rfl)
  have hsplit := splitPair?_ofList hkey hfree value
  rw [← htext, String.ofList_toList] at hsplit
  refine ⟨_, hsplit, ?_⟩
  apply String.toList_inj.1
  rw [htext]
  simp [Wasi.envEntry]

theorem splitPair?_of_not_isPair (h : ¬ IsPair text) : splitPair? text = none := by
  rw [splitPair?, List.span_eq_takeWhile_dropWhile]
  by_cases hsign : '=' ∈ text.toList
  · have hhead : text.toList.head? = some '=' := not_not.1 fun hne => h ⟨hsign, hne⟩
    obtain ⟨value, htext⟩ := List.head?_eq_some_iff.1 hhead
    simp [htext]
  · have hnone : text.toList.dropWhile (fun c => c != '=') = [] := by
      rw [List.dropWhile_eq_nil_iff]
      intro c hc
      simpa using fun heq : c = '=' => hsign (heq ▸ hc)
    simp [hnone]

/-- Joining the pairs gives back the texts that were split. -/
theorem splitPairs_of_isPair (h : ∀ text ∈ texts, IsPair text) :
    ∃ pairs, splitPairs texts = .ok pairs ∧ pairs.map Wasi.envEntry = texts := by
  induction texts with
  | nil => exact ⟨[], rfl, rfl⟩
  | cons text texts ih =>
    rw [List.forall_mem_cons] at h
    obtain ⟨pair, hpair, hjoined⟩ := splitPair?_of_isPair h.1
    obtain ⟨pairs, hpairs, hrest⟩ := ih h.2
    refine ⟨pair :: pairs, ?_, by rw [List.map_cons, hjoined, hrest]⟩
    simp only [splitPairs, hpair, hpairs]
    rfl

/-- The first text that is no pair is what is complained about. -/
theorem splitPairs_of_find? (h : texts.find? (fun t => ¬ IsPair t) = some text) :
    splitPairs texts = .error (pairMessage text) := by
  induction texts with
  | nil => cases h
  | cons t texts ih =>
    by_cases ht : IsPair t
    · rw [List.find?_cons_of_neg (by simpa using ht)] at h
      obtain ⟨pair, hpair, -⟩ := splitPair?_of_isPair ht
      simp only [splitPairs, hpair, ih h]
      rfl
    · rw [List.find?_cons_of_pos (by simpa using ht)] at h
      cases h
      simp only [splitPairs, splitPair?_of_not_isPair ht]

/-! ## The options of a run -/

variable {o : RunOptions} {base : Config}

/-- If every text is a pair, the arguments and the texts are added to the configuration. -/
theorem configure_of_isPair (h : ∀ text ∈ o.env, IsPair text) (base : Config) :
    ∃ c, o.configure base = .ok c ∧
      c.args = (if base.args = [] then [o.path] else base.args) ++ o.args ∧
        c.env.map Wasi.envEntry = base.env.map Wasi.envEntry ++ o.env := by
  obtain ⟨pairs, hpairs, hjoined⟩ := splitPairs_of_isPair h
  refine ⟨_, by rw [configure, hpairs]; rfl, ?_, ?_⟩
  · simp only [guestArgs, List.isEmpty_iff]
  · rw [List.map_append, hjoined]

theorem configure_of_find? (h : o.env.find? (fun t => ¬ IsPair t) = some text) (base : Config) :
    o.configure base = .error (pairMessage text) := by
  rw [configure, splitPairs_of_find? h]
  rfl

/-- Only the file of the configuration is looked at for it. -/
theorem baseConfig_congr {file file' : String → Option Bytes}
    (h : ∀ path ∈ o.config, file' path = file path) : o.baseConfig file' = o.baseConfig file := by
  unfold baseConfig
  cases hconfig : o.config with
  | none => rfl
  | some path => simp only [h path hconfig]

end RunOptions

end CommandLine

/-! ## What a guest gets -/

namespace Watch

/-- The answer to a system call that succeeds. -/
def success : Except Fault (HostValue (List Wasm.Value)) := .ok (.ready [.i32 0])

/-- A guest asks for the number and the size of texts, and for the texts.  If there is room where it
wants them, it gets them: the array of addresses leads to each text, as long as there is no NUL in
the text. -/
structure Gets (texts : List String) (sizes get : UInt32 → UInt32 → Syscall)
    (events : List Event) : Prop where
  sizes : ∀ countPtr sizePtr m answer after,
    .called (sizes countPtr sizePtr) (some m) answer after ∈ events →
      countPtr ≠ 0 → sizePtr ≠ 0 → m.InBounds countPtr.toNat 4 → m.InBounds sizePtr.toNat 4 →
      Memory.Apart countPtr.toNat 4 sizePtr.toNat 4 →
        answer = success ∧ ∃ m' count size, after = some m' ∧
          Memory.ChangedWithin [(countPtr.toNat, 4), (sizePtr.toNat, 4)] m m' ∧
          m'.readU32 countPtr.toNat = .ok count ∧ m'.readU32 sizePtr.toNat = .ok size ∧
          count.toNat = texts.length ∧ size.toNat = room (texts.map Utf8.encode)
  get : ∀ ptrs buf m answer after, .called (get ptrs buf) (some m) answer after ∈ events →
    m.size ≤ 2 ^ 32 → ptrs ≠ 0 → buf ≠ 0 → m.InBounds ptrs.toNat (4 * texts.length) →
      m.InBounds buf.toNat (room (texts.map Utf8.encode)) →
      Memory.Apart ptrs.toNat (4 * texts.length) buf.toNat (room (texts.map Utf8.encode)) →
        answer = success ∧ ∃ m', after = some m' ∧
          Memory.ChangedWithin [(ptrs.toNat, 4 * texts.length),
            (buf.toNat, room (texts.map Utf8.encode))] m m' ∧
          Handed (texts.map Utf8.encode) ptrs.toNat buf.toNat m' ∧
          ∀ i text, texts[i]? = some text → '\x00' ∉ text.toList →
            ∃ address, m'.readU32 (ptrs.toNat + 4 * i) = .ok address ∧
              (m'.text? address.toNat).bind Utf8.decode? = some text

variable {args env : StringBlock} {texts : List String} {sizes get : UInt32 → UInt32 → Syscall}
  {events : List Event} {ptrs buf : Nat} {m : Memory}

/-- Entries that are encoded texts are decoded to the texts again. -/
theorem decode?_of_handed (h : Handed (texts.map Utf8.encode) ptrs buf m) {i : Nat} {text : String}
    (htext : texts[i]? = some text) (hnul : '\x00' ∉ text.toList) :
    ∃ address, m.readU32 (ptrs + 4 * i) = .ok address ∧
      (m.text? address.toNat).bind Utf8.decode? = some text := by
  have hentry : (texts.map Utf8.encode)[i]? = some (Utf8.encode text) := by
    rw [List.getElem?_map, htext]
    rfl
  obtain ⟨address, hread, -, -, -, hfound⟩ := h.entry i _ hentry
  refine ⟨address, hread, ?_⟩
  rw [hfound (Utf8.zero_not_mem_encode hnul), Option.bind_some, Utf8.decode?_encode]

/-- The answers of a host that hands over the texts with two of its calls. -/
theorem Answers.gets (h : Answers args env events) (hroom : room (texts.map Utf8.encode) < 2 ^ 32)
    (hsizes : ∀ s : Wasi, s.args = args → s.env = env → ∀ m a b, Syscall.run s m (sizes a b) =
      Syscall.storing s m (StringBlock.storeSizes (.ofTexts texts) m a b))
    (hget : ∀ s : Wasi, s.args = args → s.env = env → ∀ m a b, Syscall.run s m (get a b) =
      Syscall.handing s (StringBlock.store (.ofTexts texts) m a b)) :
    Gets texts sizes get events where
  sizes countPtr sizePtr m answer after hcalled hcount hsize hcount' hsize' hapart := by
    obtain ⟨⟨_, globals, fuel, host⟩, hargs, henv, rfl, hanswer, hafter⟩ := h _ _ _ _ hcalled
    obtain ⟨m', hstore, hchanged, hfound⟩ :=
      StringBlock.storeSizes_of_inBounds hroom hcount hsize hcount' hsize'
    have hrun : Syscall.run host.wasi m (sizes countPtr sizePtr) = ⟨.success, host.wasi, m'⟩ := by
      rw [hsizes host.wasi hargs henv, StringBlock.ofTexts, hstore]
      rfl
    obtain ⟨count, size, hcountRead, hsizeRead, hcountEq, hsizeEq⟩ := hfound hapart
    rw [List.length_map] at hcountEq
    simp only [Host.answerCall, Action.apply_of, hrun] at hanswer hafter
    exact ⟨hanswer.symm, m', count, size, hafter.symm, hchanged, hcountRead, hsizeRead, hcountEq,
      hsizeEq⟩
  get ptrs buf m answer after hcalled hm hptrs hbuf harray hblock hapart := by
    obtain ⟨⟨_, globals, fuel, host⟩, hargs, henv, rfl, hanswer, hafter⟩ := h _ _ _ _ hcalled
    rw [← List.length_map (f := Utf8.encode)] at harray hapart ⊢
    obtain ⟨m', hstore, hchanged, hfound⟩ :=
      StringBlock.handed_of_inBounds hm hptrs hbuf harray hblock
    have hrun : Syscall.run host.wasi m (get ptrs buf) = ⟨.success, host.wasi, m'⟩ := by
      rw [hget host.wasi hargs henv, StringBlock.ofTexts, hstore]
      rfl
    simp only [Host.answerCall, Action.apply_of, hrun] at hanswer hafter
    exact ⟨hanswer.symm, m', hafter.symm, hchanged, hfound hapart, fun _ _ htext hnul =>
      decode?_of_handed (hfound hapart) htext hnul⟩

end Watch

/-! ## Runs -/

namespace CommandLine

open RunOptions (IsPair)

/-- The guest of a run gets arguments and variables. -/
structure Tells (o : RunOptions) (c : Config) (m : GuestModule) (stdin : Bytes)
    (args vars : List String) : Prop where
  /-- What is written down is written down about this run. -/
  report : (watched o c m stdin).1 = runModule o c m stdin
  /-- The guest ends as it does when nothing is written down. -/
  ended : ∀ i, Instance.create c m.code imports (streams stdin) = .ok i → ∀ log, ∃ events,
    runGuest (Watch.exports (.of imports i)) o ⟨i, log⟩ =
      ((ended o i).1, ⟨(ended o i).2, log ++ events⟩)
  /-- What the module imports as a function of WASI is this function. -/
  linked : ∀ i, Instance.create c m.code imports (streams stdin) = .ok i →
    ∀ f ∈ WasiFunction.all, ∀ (n : Nat) (type : Wasm.FunctionType),
      m.code.imports[n]? = some (Definitions.wasiKey f.name, .function type) →
        i.environment.functions[n]? = some (.host (f.link .plain))
  args : room (args.map Utf8.encode) < 2 ^ 32 →
    Watch.Gets args .argsSizesGet .argsGet (watched o c m stdin).2
  vars : room (vars.map Utf8.encode) < 2 ^ 32 →
    Watch.Gets vars .environSizesGet .environGet (watched o c m stdin).2

/-- A guest gets the arguments of its configuration, and its variables joined by a sign of
equality. -/
theorem tells_config (o : RunOptions) (c : Config) (m : GuestModule) (stdin : Bytes) :
    Tells o c m stdin c.args (c.env.map Wasi.envEntry) where
  report := watched_fst o c m stdin
  ended i h log := by
    obtain ⟨events, hrun, -⟩ := runGuest_follows (Watch.created h).1 o log
    exact ⟨events, hrun⟩
  linked i h f hf n type hn := Instance.function_of_import h hf hn
  args hroom := by
    refine (answers_watched o c m stdin).gets hroom (fun s hargs _ m a b => ?_)
      (fun s hargs _ m a b => ?_)
    · rw [Syscall.run, hargs]
    · rw [Syscall.run, hargs]
  vars hroom := by
    refine (answers_watched o c m stdin).gets hroom (fun s _ henv m a b => ?_)
      (fun s _ henv m a b => ?_)
    · rw [Syscall.run, henv]
    · rw [Syscall.run, henv]

/-! ### A guest that asks for its environment -/

/-- A guest that asks for its environment, the addresses at 16 and the texts at 64. -/
def asker : Wasm.Module where
  imports := [(Definitions.wasiKey "environ_get", .function ⟨[.i32, .i32], [.i32]⟩)]
  memories := [{ min := 1 }]
  exports := [(memoryName, .memory 0), (commandEntry, .function 1)]
  functions := [⟨⟨[], []⟩, [], [.const (.i32 16), .const (.i32 64), .call 0, .drop]⟩]

/-- The guest after it was set up. -/
def asking (wasi : Wasi) : Instance where
  code := asker
  environment :=
    Instance.linked asker [(WasiFunction.ofTwo "environ_get" .environGet).link .plain]
      ({} : Config).maxMemory.toNat
  store :=
    { memory := some (.blank 65536)
      host := { wasi, sharesMemory := true } }

theorem link_asker (args : List String) (env : List (String × String)) :
    ∃ wasi, Instance.link { args, env } asker imports (streams []) = .ok (asking wasi) := by
  obtain ⟨wasi, -, hwasi, -, -⟩ := Wasi.ofConfig_over { args, env } (streams [])
  have himported : Definitions.resolve
      (Definitions.wasi ++ [⟨sleepImport.key, sleepImport.link .plain⟩]) asker =
        .ok [(WasiFunction.ofTwo "environ_get" .environGet).link .plain] := by rfl
  exact ⟨wasi, Instance.link_eq hwasi (by rfl) rfl himported (by rfl)⟩

section Asking

variable {wasi : Wasi} {w : Watch} {answer : Syscall.Result}
  (henvironment : w.environment .plain = (asking wasi).environment)
  (hhost : w.functions[0]? = some (.host (.wasi (.ofTwo "environ_get" .environGet))))
  (hguest : w.functions[1]? = asker.functions.head?.map .guest)
  (hanswer : Syscall.run wasi (.blank 65536) (.environGet 16 64) = answer)

/-- What is written down about the guest. -/
def asked (answer : Syscall.Result) : List Event :=
  [.instruction, .instruction, .instruction,
    .called (.environGet 16 64) (some (.blank 65536))
      (.ok (.ready [.i32 (.ofNat answer.errno.code)])) (some answer.memory),
    .instruction, .instruction]

/-- What is left to run after the answer. -/
def afterAnswer : Wasm.Activation where
  arity := 0
  locals := #[]
  code := [.drop]

include henvironment hhost hguest hanswer

theorem exec_asking (n : Nat) :
    ∃ s, (w.exec (n + 9) (.calling 1 [] [])).apply ⟨(asking wasi).store, []⟩ =
      (.ok [], ⟨s, asked answer⟩) := by
  have hstep {a : Wasm.Activation} {machine : Wasm.Machine} {s s' : Host.Store}
      {log : List Event} {n : Nat}
      (h : (Wasm.step (asking wasi).environment a []).apply s = (.ok machine, s')) :
      (w.exec (n + 1) (.running a [])).apply ⟨s, log⟩ =
        (w.exec n machine).apply ⟨s', log ++ [.instruction]⟩ :=
    Watch.exec_running (henvironment ▸ h)
  have hbegin : (w.exec (n + 9) (.calling 1 [] [])).apply ⟨(asking wasi).store, []⟩ =
      (w.exec (n + 5) (.calling 0 [.i32 16, .i32 64] [afterAnswer])).apply
        ⟨(asking wasi).store, [.instruction, .instruction, .instruction]⟩ := by
    rw [Watch.exec_calling_guest hguest rfl, hstep (by rfl), hstep (by rfl), hstep (by rfl)]
    rfl
  have hcall (callback : Wasm.Callback Watch.Store) (log : List Event) :
      ∃ s, (((WasiFunction.ofTwo "environ_get" .environGet).link Watch.manner).call callback
          [.i32 16, .i32 64]).apply ⟨(asking wasi).store, log⟩ =
        (.ok [.i32 (.ofNat answer.errno.code)], ⟨s, log ++ [.called (.environGet 16 64)
          (some (.blank 65536)) (.ok (.ready [.i32 (.ofNat answer.errno.code)]))
          (some answer.memory)]⟩) :=
    ⟨_, Watch.apply_call_link rfl rfl rfl rfl hanswer⟩
  have hend (s : Host.Store) (log : List Event) (value : Wasm.Value) :
      (w.exec (n + 4) (.returning [value] [afterAnswer])).apply ⟨s, log⟩ =
        (.ok [], ⟨s, log ++ [.instruction] ++ [.instruction]⟩) := by rfl
  obtain ⟨s, hs⟩ := hcall (fun function args => w.exec (n + 4) (.calling function args []))
    [.instruction, .instruction, .instruction]
  rw [hbegin, Watch.exec_calling_host hhost hs, hend]
  exact ⟨s, rfl⟩

theorem log_start_asking : (w.exports.start.apply ⟨asking wasi, []⟩).2.log = asked answer := by
  have hlimit : Wasm.stepLimit = Wasm.stepLimit - 9 + 9 := by decide
  obtain ⟨s, hexec⟩ := exec_asking henvironment hhost hguest hanswer (Wasm.stepLimit - 9)
  rw [← hlimit] at hexec
  have hstart : w.exports.start.apply ⟨asking wasi, []⟩ =
      w.exports.runCommand.apply ⟨{ asking wasi with started := true }, []⟩ := by rfl
  have honce : (Instance.callOnce { asking wasi with started := true } w.invoke 1 []).apply
      ⟨(asking wasi).store, []⟩ =
        (w.exec Wasm.stepLimit (.calling 1 [] [])).apply ⟨(asking wasi).store, []⟩ := by rfl
  have hfunction : (asking wasi).code.function? commandEntry = some 1 := by rfl
  have hcontrols : (asking wasi).store.host.controls = none := rfl
  rw [hstart, Instance.Manner.runCommand]
  simp only [Action.apply_of, Instance.Manner.call, Action.apply_bind, Action.apply_get, hfunction,
    hcontrols, Action.within, honce, hexec]
  rfl

end Asking

/-- The request of the guest is written down in a run of it as a command. -/
theorem called_mem_watched {o : RunOptions} (ho : o.invoke = none) (args : List String)
    (env : List (String × String)) :
    ∃ answer after, .called (.environGet 16 64) (some (.blank 65536)) answer after ∈
      (watched o { args, env } ⟨"m", asker⟩ []).2 := by
  obtain ⟨wasi, hlink⟩ := link_asker args env
  have hlog := log_start_asking (Watch.environment_of_link hlink) (by rfl) (by rfl) rfl
  have hcreate : Watch.create { args, env } asker imports (streams []) =
      (.ok (asking wasi), []) := by
    rw [Watch.create, hlink]
    rfl
  have hwatched : (watched o { args, env } ⟨"m", asker⟩ []).2 =
      ((Watch.of imports (asking wasi)).exports.start.apply ⟨asking wasi, []⟩).2.log := by
    rw [watched, hcreate]
    simp only [runGuest, ho, runCommand]
    rcases (Watch.of imports (asking wasi)).exports.start.apply ⟨asking wasi, []⟩ with
      ⟨_ | _, t⟩ <;> rfl
  rw [hwatched, hlog]
  exact ⟨_, _, List.mem_cons_of_mem _ (List.mem_cons_of_mem _ (List.mem_cons_of_mem _
    List.mem_cons_self))⟩

/-- What becomes of the texts that are given to a run. -/
structure PassesStrings (o : RunOptions) (file : String → Option Bytes) : Prop where
  /-- A text that is no pair ends the run, whatever the module is and whether there is one. -/
  refused : ∀ stdin, (∃ text ∈ o.env, ¬ IsPair text) →
    (run o file stdin).code = 1 ∧ (run o file stdin).stdout = [] ∧
      ∀ file' stdin', (∀ path ∈ o.config, file' path = file path) →
        run o file' stdin' = run o file stdin
  named : ∀ base text stdin, o.baseConfig file = .ok base →
    o.env.find? (fun t => ¬ IsPair t) = some text →
      run o file stdin = .ofFailure (RunOptions.pairMessage text)
  /-- Otherwise the guest gets the arguments of the configuration, or else the path of the module,
  and then those of the run; and the pairs of the configuration, and then the texts. -/
  told : ∀ base, o.baseConfig file = .ok base → (∀ text ∈ o.env, IsPair text) →
    ∃ c, o.configure base = .ok c ∧
      ∀ m stdin,
        (GuestModule.ofFile o.path (file o.path) = .ok m →
          run o file stdin = runModule o c m stdin) ∧
        Tells o c m stdin ((if base.args = [] then [o.path] else base.args) ++ o.args)
          (base.env.map Wasi.envEntry ++ o.env)

theorem run_of_find? {o : RunOptions} {file : String → Option Bytes} {base : Config}
    {text : String} (hbase : o.baseConfig file = .ok base)
    (h : o.env.find? (fun t => ¬ IsPair t) = some text) (stdin : Bytes) :
    run o file stdin = .ofFailure (RunOptions.pairMessage text) := by
  simp only [run, hbase, RunOptions.configure_of_find? h]

/-- A run with a configuration and with variables of which one has a second sign of equality, one
has no value, and one is given twice. -/
def telling : RunOptions where
  path := "m.wasm"
  args := ["x"]
  env := ["B=x=y", "C=", "B=x=y"]
  config := some "c.json"

/-- The text of its configuration, which has an argument and a variable. -/
def tellingText : String := "\x7b\"args\": [\"a\"], \"env\": [[\"K\", \"v=\"]]\x7d"

/-- The files of that run. -/
def tellingFiles (path : String) : Option Bytes :=
  if path = "c.json" then some (Utf8.encode tellingText) else none

end CommandLine

end GuestHost
