import GuestHost.Proofs.Json.Writing

/-!
# A configuration is decoded to its fields over the defaults

A configuration text is an object whose members are fields of a configuration, in any order and with
any way to write them, and members with other names.  `Config.ofJson_members` says that it gives
the fields that are there and keeps the defaults of those that are not, and that it is refused when
a field is there twice or when one of the two records in it is not whole.
-/

namespace GuestHost

open Json

/-! ## The members of a configuration -/

/-- One value if a name is among some, and another one if not. -/
def pick {α : Type} (names : List String) (name : String) (yes no : α) : α :=
  if name ∈ names then yes else no

theorem pick_nil {α : Type} (name : String) (yes no : α) : pick [] name yes no = no :=
  if_neg List.not_mem_nil

theorem pick_cons {α : Type} (n name : String) (names : List String) (yes no : α) :
    pick (n :: names) name yes no = pick names name yes (pick [n] name yes no) := by
  by_cases h : name ∈ names <;> simp [pick, h]

theorem pick_of_mem {α : Type} {names : List String} {name : String} (h : name ∈ names)
    (yes no : α) : pick names name yes no = yes :=
  if_pos h

namespace StandardFds

/-- The members that give three host descriptors. -/
def fields (fds : StandardFds) : List Member :=
  [("stdin", NaturalPhrase fds.stdin.toNat), ("stdout", NaturalPhrase fds.stdout.toNat),
    ("stderr", NaturalPhrase fds.stderr.toNat)]

/-- Some descriptors, and others for the rest. -/
def overlay (fds : StandardFds) (names : List String) (others : StandardFds) : StandardFds where
  stdin := pick names "stdin" fds.stdin others.stdin
  stdout := pick names "stdout" fds.stdout others.stdout
  stderr := pick names "stderr" fds.stderr others.stderr

end StandardFds

namespace Suspension.Scratch

/-- The members that place a scratch region. -/
def fields (s : Scratch) : List Member :=
  [("data_ptr", NaturalPhrase s.dataPtr.toNat), ("unwind_start", NaturalPhrase s.start.toNat),
    ("unwind_end", NaturalPhrase s.stop.toNat)]

/-- Some addresses of a region, and others for the rest. -/
def overlay (s : Scratch) (names : List String) (others : Scratch) : Scratch where
  dataPtr := pick names "data_ptr" s.dataPtr others.dataPtr
  start := pick names "unwind_start" s.start others.start
  stop := pick names "unwind_end" s.stop others.stop

end Suspension.Scratch

namespace Config

/-- The members that give the fields of a configuration. -/
def fields (c : Config) : List Member :=
  [("args", ArrayPhrase StringPhrase c.args),
    ("env", ArrayPhrase PairPhrase c.env),
    ("stdio", WholePhrase c.stdio.fields),
    ("table_size", NaturalPhrase c.tableSize.toNat),
    ("return_on_exit", BoolPhrase c.returnOnExit),
    ("asyncify", WholePhrase c.scratch.fields),
    ("max_memory", NaturalPhrase c.maxMemory.toNat),
    ("fuel_limit", OptionPhrase (fun fuel => NaturalPhrase fuel.toNat) c.fuelLimit),
    ("optimization_level", NaturalPhrase c.optimizationLevel.toNat),
    ("trap_unknown_imports", BoolPhrase c.trapUnknownImports)]

/-- The members of a configuration that lack something of a record. -/
def lacking (c : Config) : List Member :=
  [("stdio", PartPhrase c.stdio.fields), ("asyncify", PartPhrase c.scratch.fields)]

/-- The names of the fields. -/
def names : List String :=
  ["args", "env", "stdio", "table_size", "return_on_exit", "asyncify", "max_memory", "fuel_limit",
    "optimization_level", "trap_unknown_imports"]

/-- The fields of a configuration with some names, and those of another one for the rest. -/
def overlay (c : Config) (names : List String) (others : Config) : Config where
  args := pick names "args" c.args others.args
  env := pick names "env" c.env others.env
  stdio := pick names "stdio" c.stdio others.stdio
  tableSize := pick names "table_size" c.tableSize others.tableSize
  returnOnExit := pick names "return_on_exit" c.returnOnExit others.returnOnExit
  scratch := pick names "asyncify" c.scratch others.scratch
  maxMemory := pick names "max_memory" c.maxMemory others.maxMemory
  fuelLimit := pick names "fuel_limit" c.fuelLimit others.fuelLimit
  optimizationLevel := pick names "optimization_level" c.optimizationLevel others.optimizationLevel
  trapUnknownImports :=
    pick names "trap_unknown_imports" c.trapUnknownImports others.trapUnknownImports

end Config

/-! ## What the members give -/

theorem StandardFds.described (fds : StandardFds) :
    Config.standardFds.Describes fds.overlay fds.fields fds where
  distinct := by decide
  layers :=
    { nil := fun _ => by simp only [overlay, pick_nil]
      cons := fun name names others => by simp only [overlay, ← pick_cons name _ names] }
  writes :=
    .cons ⟨rfl, isJson_natural _, fun _ => (u32_reads _).map _⟩ <|
    .cons ⟨rfl, isJson_natural _, fun _ => (u32_reads _).map _⟩ <|
    .cons ⟨rfl, isJson_natural _, fun _ => (u32_reads _).map _⟩ .nil
  all h others := by
    simp only [Record.names, Config.standardFds, List.map_cons, List.cons_subset] at h
    simp only [overlay, pick_of_mem, h]

theorem Suspension.Scratch.described (s : Scratch) :
    Config.scratchRecord.Describes s.overlay s.fields s where
  distinct := by decide
  layers :=
    { nil := fun _ => by simp only [overlay, pick_nil]
      cons := fun name names others => by simp only [overlay, ← pick_cons name _ names] }
  writes :=
    .cons ⟨rfl, isJson_natural _, fun _ => (u32_reads _).map _⟩ <|
    .cons ⟨rfl, isJson_natural _, fun _ => (u32_reads _).map _⟩ <|
    .cons ⟨rfl, isJson_natural _, fun _ => (u32_reads _).map _⟩ .nil
  all h others := by
    simp only [Record.names, Config.scratchRecord, List.map_cons, List.cons_subset] at h
    simp only [overlay, pick_of_mem, h]

namespace Config

theorem fuel_reads (fuel : Option UInt64) :
    Json.Reads (Reader.optional Reader.u64) (OptionPhrase (fun n => NaturalPhrase n.toNat) fuel)
      fuel := by
  refine optional_reads u64_reads (fun n cs rest h => ?_) fuel
  obtain ⟨d, cs', rfl, hd⟩ := h.head
  refine ⟨d, cs', rfl, not_blank_of_isDigit hd, ?_⟩
  rintro rfl
  cases hd

theorem described (c : Config) : record.Describes c.overlay c.fields c where
  distinct := by decide
  layers :=
    { nil := fun _ => by simp only [overlay, pick_nil]
      cons := fun name names others => by simp only [overlay, ← pick_cons name _ names] }
  writes :=
    .cons ⟨rfl, isJson_array isJson_string _, fun _ =>
      (array_reads text_reads isJson_string _).map _⟩ <|
    .cons ⟨rfl, isJson_array isJson_pair _, fun _ =>
      (array_reads pair_reads isJson_pair _).map _⟩ <|
    .cons ⟨rfl, c.stdio.described.isJson_whole, fun _ =>
      (c.stdio.described.whole_reads _).map _⟩ <|
    .cons ⟨rfl, isJson_natural _, fun _ => (usize_reads _).map _⟩ <|
    .cons ⟨rfl, isJson_bool _, fun _ => (bool_reads _).map _⟩ <|
    .cons ⟨rfl, c.scratch.described.isJson_whole, fun _ =>
      (c.scratch.described.whole_reads _).map _⟩ <|
    .cons ⟨rfl, isJson_natural _, fun _ => (usize_reads _).map _⟩ <|
    .cons ⟨rfl, isJson_option (fun _ => isJson_natural _) _, fun _ => (fuel_reads _).map _⟩ <|
    .cons ⟨rfl, isJson_natural _, fun _ => (u8_reads _).map _⟩ <|
    .cons ⟨rfl, isJson_bool _, fun _ => (bool_reads _).map _⟩ .nil
  all h others := by
    simp only [Record.names, record, List.map_cons, List.cons_subset] at h
    simp only [overlay, pick_of_mem, h]

theorem lacking_refused (c : Config) {m : Member} (hm : m ∈ c.lacking) : record.Refuses m := by
  simp only [lacking, List.mem_cons, List.not_mem_nil, or_false] at hm
  have hstdio := c.stdio.described.part_refuses {} rfl
  have hscratch := c.scratch.described.part_refuses {} rfl
  rcases hm with rfl | rfl
  · exact c.described.refuses (.tail _ (.tail _ (.head _)))
      c.stdio.described.isJson_part fun _ => hstdio.bind _
  · exact c.described.refuses (.tail _ (.tail _ (.tail _ (.tail _ (.tail _ (.head _))))))
      c.scratch.described.isJson_part fun _ => hscratch.bind _

theorem fields_writable (c : Config) {m : Member} (hm : m ∈ c.fields) : Writable m.2 := by
  have hstdio : ∀ m ∈ c.stdio.fields, Writable m.2 := by
    simp [StandardFds.fields, natural_writable]
  have hscratch : ∀ m ∈ c.scratch.fields, Writable m.2 := by
    simp [Suspension.Scratch.fields, natural_writable]
  simp only [fields, List.mem_cons, List.not_mem_nil, or_false] at hm
  rcases hm with rfl | rfl | rfl | rfl | rfl | rfl | rfl | rfl | rfl | rfl
  · exact array_writable string_writable _
  · exact array_writable (fun _ => array_writable string_writable _) _
  · exact whole_writable c.stdio.described hstdio
  · exact natural_writable _
  · exact bool_writable _
  · exact whole_writable c.scratch.described hscratch
  · exact natural_writable _
  · exact option_writable (fun _ => natural_writable _) _
  · exact natural_writable _
  · exact bool_writable _

theorem lacking_writable (c : Config) {m : Member} (hm : m ∈ c.lacking) : Writable m.2 := by
  simp only [lacking, List.mem_cons, List.not_mem_nil, or_false] at hm
  rcases hm with rfl | rfl
  · exact part_writable (List.cons_ne_nil _ _)
  · exact part_writable (List.cons_ne_nil _ _)

/-- The member of a field of some configuration, which may lack something of a record. -/
def IsField (m : Member) : Prop := ∃ c : Config, m ∈ c.fields ∨ m ∈ c.lacking

/-- A configuration is decoded to its fields over the defaults.  First, whatever members there are,
some text has them.  Second, any text whose members give fields of a configuration once, in any
order, and anything under other names, is read as the configuration that has these fields, and the
defaults for the rest.  Third, any text is refused in which a field is there twice, whatever its
values, or in which one of the two records lacks a member. -/
theorem ofJson_members :
    (∀ ms, Gives names IsField ms → ∃ text, IsDocument ms text) ∧
    (∀ (c : Config) ms text, Gives names (· ∈ c.fields) ms → (given names ms).Nodup →
      IsDocument ms text → ofJson text = .ok (c.overlay (given names ms) {})) ∧
    (∀ ms text, Gives names IsField ms →
      (¬ (given names ms).Nodup ∨ ∃ c : Config, ∃ m ∈ ms, m ∈ c.lacking) → IsDocument ms text →
        ∃ flaw : Flaw, ofJson text = .error (.json (.mismatch flaw.description))) := by
  refine ⟨fun ms hms => ?_, fun c ms text hms hnodup htext => ?_,
    fun ms text hms hflawed htext => ?_⟩
  · refine exists_document fun m hm => ?_
    rcases hms m hm with ⟨c, hfield | hlacking⟩ | ⟨-, hvalue⟩
    · exact c.fields_writable hfield
    · exact c.lacking_writable hlacking
    · rw [hvalue]
      exact value_writable
  · have hreads := Record.object_reads {} c.described.layers (hms.imp fun _ => c.described.reads)
      hnodup fun h => by cases h
    rw [ofJson, run_whole hreads htext]
    rfl
  · have hms' : Gives record.names
        (fun m => (∃ overlay, record.Reads overlay m) ∨ record.Refuses m) ms :=
      hms.imp fun _ ⟨c, hm⟩ => hm.imp (fun h => ⟨c.overlay, c.described.reads h⟩) c.lacking_refused
    have hflawed' : ¬ (given record.names ms).Nodup ∨ ∃ m ∈ ms, record.Refuses m :=
      hflawed.imp_right fun ⟨c, m, hmem, hm⟩ => ⟨m, hmem, c.lacking_refused hm⟩
    obtain ⟨flaw, hrun⟩ := run_refused (Record.object_flawed {} hms' hflawed') htext
    refine ⟨flaw, ?_⟩
    rw [ofJson, hrun]

theorem ofJson_members_escaped :
    ofJson "\x7b \"\\u0078\" :[null],\"return_on_exit\":false\x7d" =
        .ok { returnOnExit := false } ∧
      ∃ flaw : Flaw, ofJson "\x7b\"stdio\":\x7b\x7d\x7d" =
        .error (.json (.mismatch flaw.description)) := by
  have hblank : ' ' ∈ blanks := by decide
  have hx (rest : List Char) :
      CharPhrase 'x' ('\\' :: 'u' :: '0' :: '0' :: '7' :: '8' :: rest) rest :=
    .unit (@HexPhrase.mk 0 0 7 8 '0' '0' '7' '8' rest (.inl rfl) (.inl rfl) (.inl rfl) (.inl rfl))
  have hexit (rest : List Char) := plain_string (s := "return_on_exit") (by simp [IsPlain]) rest
  have hstdio (rest : List Char) := plain_string (s := "stdio") (by simp [IsPlain]) rest
  simp only [String.reduceToList, List.cons_append, List.nil_append] at hexit hstdio
  have hdecoded : IsDocument [("x", ValuePhrase), ("return_on_exit", BoolPhrase false)]
      "\x7b \"\\u0078\" :[null],\"return_on_exit\":false\x7d" := by
    refine ⟨_, [], .none, ?_, .none⟩
    simp only [String.reduceToList]
    refine .mk (.cons (.first (.some hblank .none)) (.mk (.mk (.char (hx _) .close))
      (.some hblank .none) .none (.array (.element .none .null .none))) ?_)
    exact .cons (.comma .none .none) (.mk (hexit _) .none .none .false) (.nil .none)
  have hrefused : IsDocument [("stdio", PartPhrase (default : Config).stdio.fields)]
      "\x7b\"stdio\":\x7b\x7d\x7d" := by
    refine ⟨_, [], .none, ?_, .none⟩
    simp only [String.reduceToList]
    have hpart (rest : List Char) :
        PartPhrase (default : Config).stdio.fields ('\x7b' :: '\x7d' :: rest) rest :=
      .mk (List.forall_mem_nil _) (by decide) (.mk (.nil .none))
    exact .mk (.cons (.first .none) (.mk (hstdio _) .none .none (hpart _)) (.nil .none))
  constructor
  · refine ofJson_members.2.1 { returnOnExit := false } _ _ ?_ (by decide) hdecoded
    rintro m (_ | ⟨_, _ | ⟨_, ⟨⟩⟩⟩)
    · exact .inr ⟨by decide, rfl⟩
    · exact .inl (by simp [fields])
  · refine ofJson_members.2.2 _ _ ?_ (.inr ⟨default, _, .head _, .head _⟩) hrefused
    rintro m (_ | ⟨_, ⟨⟩⟩)
    exact .inl ⟨default, .inr (.head _)⟩

end Config

end GuestHost
