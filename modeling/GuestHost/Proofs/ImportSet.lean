import GuestHost.Proofs.Linking
import Mathlib.Data.Finset.Card
import Mathlib.Data.List.Dedup
import Mathlib.Data.List.Find

/-!
# What definitions come to

The host provides functions by one definition after the other.  `ImportSet.lastDefinitions` says
which of them are left in the end: those whose key no later one has, in their own order.
`ImportSet.entries_ofList` follows it from what a single definition does.

The functions that are left are then defined after those of WASI.  This fails just if one of them
has a key of those, and names the first that does: `Definitions.defineAll_eq`.
-/

namespace GuestHost

namespace ImportSet

variable {definitions : List HostImport}

/-! ## The definitions that are left -/

/-- The definitions whose key no later one has, in order. -/
def lastDefinitions : List HostImport → List HostImport
  | [] => []
  | e :: later =>
    if e.key ∈ later.map HostImport.key then lastDefinitions later else e :: lastDefinitions later

theorem map_key_lastDefinitions (definitions : List HostImport) :
    (lastDefinitions definitions).map HostImport.key = (definitions.map HostImport.key).dedup := by
  induction definitions with
  | nil => rfl
  | cons e later ih =>
    rw [lastDefinitions, List.map_cons, List.dedup_cons]
    split
    · exact ih
    · rw [List.map_cons, ih]

/-- One more definition takes the place of the one that had its key, and comes last. -/
theorem lastDefinitions_concat (definitions : List HostImport) (e : HostImport) :
    lastDefinitions (definitions ++ [e]) =
      ((lastDefinitions definitions).filter fun e' => e'.key ≠ e.key) ++ [e] := by
  induction definitions with
  | nil => rfl
  | cons e' later ih =>
    have hmem : e'.key ∈ (later ++ [e]).map HostImport.key ↔
        e'.key ∈ later.map HostImport.key ∨ e'.key = e.key := by simp
    rw [List.cons_append, lastDefinitions, lastDefinitions, ih]
    by_cases hlater : e'.key ∈ later.map HostImport.key
    · rw [if_pos (hmem.2 (.inl hlater)), if_pos hlater]
    · rw [if_neg hlater]
      by_cases hkey : e'.key = e.key
      · rw [if_pos (hmem.2 (.inr hkey)), List.filter_cons_of_neg (by simpa using hkey)]
      · rw [if_neg fun h => (hmem.1 h).elim hlater hkey,
          List.filter_cons_of_pos (by simpa using hkey), List.cons_append]

theorem entries_ofList (definitions : List HostImport) :
    (ofList definitions).entries = lastDefinitions definitions := by
  induction definitions using List.reverseRecOn with
  | nil => rfl
  | append_singleton definitions e ih =>
    rw [lastDefinitions_concat, ← ih, ofList, List.foldl_concat]
    rfl

/-- No two functions of a set share a key, however it was defined. -/
theorem nodup_keys_ofList (definitions : List HostImport) : (ofList definitions).keys.Nodup := by
  induction definitions using List.reverseRecOn with
  | nil => exact List.nodup_nil
  | append_singleton definitions e ih =>
    rw [ofList, List.foldl_concat]
    exact nodup_keys_define ih e

theorem keys_ofList (definitions : List HostImport) :
    (ofList definitions).keys = (definitions.map HostImport.key).dedup := by
  rw [keys, entries_ofList, map_key_lastDefinitions]

/-- Among the definitions that are left, the one with a key is the last one with that key. -/
theorem find?_lastDefinitions (definitions : List HostImport) (key : ImportKey) :
    (lastDefinitions definitions).find? (fun e => e.key = key) =
      (definitions.filter fun e => e.key = key).getLast? := by
  induction definitions with
  | nil => rfl
  | cons e later ih =>
    rw [lastDefinitions]
    by_cases hkey : e.key = key
    · subst hkey
      split
      · next hlater =>
        obtain ⟨e', he', hkey⟩ := List.mem_map.1 hlater
        have hnext : later.filter (fun e' => e'.key = e.key) ≠ [] :=
          List.ne_nil_of_mem (List.mem_filter.2 ⟨he', by simpa using hkey⟩)
        rw [ih, List.filter_cons_of_pos (by simp), List.getLast?_cons_of_ne_nil hnext]
      · next hlater =>
        have hnone : later.filter (fun e' => e'.key = e.key) = [] := by
          simpa using hlater
        simp [hnone]
    · split
      · simp [ih, hkey]
      · simp [ih, hkey]

/-- A set is what a list of definitions comes to if the last definition of each key counts. -/
structure LastWins (s : ImportSet) (definitions : List HostImport) : Prop where
  nodup : s.keys.Nodup
  mem_keys : ∀ key, key ∈ s.keys ↔ ∃ e ∈ definitions, e.key = key
  get? : ∀ key, s.get? key = (definitions.filter fun e => e.key = key).getLast?
  order : s.entries = lastDefinitions definitions
  size : s.size = (definitions.map HostImport.key).toFinset.card

theorem lastWins_ofList (definitions : List HostImport) :
    LastWins (ofList definitions) definitions where
  nodup := nodup_keys_ofList definitions
  mem_keys key := by rw [keys_ofList, List.mem_dedup, List.mem_map]
  get? key := by rw [ImportSet.get?, entries_ofList, find?_lastDefinitions]
  order := entries_ofList definitions
  size := by
    have hsize : (ofList definitions).size = (ofList definitions).keys.length :=
      (List.length_map _).symm
    rw [hsize, keys_ofList, List.card_toFinset]

end ImportSet

/-! ## Defining them after the functions of WASI -/

namespace Definitions

variable {ds : Definitions} {d : Definition} {imports : ImportSet}

/-- Defines one function after the other. -/
def defineAll (ds : Definitions) (added : List Definition) : Except Fault Definitions :=
  added.foldlM define ds

theorem contains_iff {key : ImportKey} : ds.contains key ↔ key ∈ ds.map Definition.key := by
  simp [contains]

theorem contains_concat (ds : Definitions) (d : Definition) (key : ImportKey) :
    contains (ds ++ [d]) key = (ds.contains key || decide (d.key = key)) := by
  simp [contains]

/-- Functions with different keys can all be defined, or the first that has a key that is taken is
named. -/
theorem defineAll_eq {added : List Definition} (h : (added.map Definition.key).Nodup) :
    ds.defineAll added =
      match added.find? fun d => ds.contains d.key with
      | none => .ok (ds ++ added)
      | some d => .error (.wasm (.definedTwice d.key)) := by
  induction added generalizing ds with
  | nil =>
    rw [List.append_nil]
    rfl
  | cons d added ih =>
    obtain ⟨hd, hadded⟩ := List.nodup_cons.1 h
    rw [defineAll, List.foldlM_cons, define]
    cases htaken : ds.contains d.key with
    | true =>
      rw [List.find?_cons_of_pos (by simpa using htaken)]
      rfl
    | false =>
      -- The key that is taken now is not the key of any function that is still to be defined.
      have hfind : added.find? (fun e => contains (ds ++ [d]) e.key) =
          added.find? fun e => ds.contains e.key := by
        refine List.find?_congr fun e he => ?_
        have hne : d.key ≠ e.key := fun hkey => hd (hkey ▸ List.mem_map_of_mem he)
        rw [contains_concat, decide_eq_false hne, Bool.or_false]
      have hrest := @ih (ds ++ [d]) hadded
      rw [hfind, List.append_assoc] at hrest
      rw [List.find?_cons_of_neg (by simp [htaken])]
      exact hrest

/-- The keys of the functions of WASI. -/
theorem map_key_wasi : wasi.map Definition.key =
    ["args_sizes_get", "args_get", "environ_sizes_get", "environ_get", "fd_close",
      "fd_fdstat_get", "fd_prestat_get", "fd_prestat_dir_name", "fd_seek", "fd_tell", "fd_read",
      "fd_write", "proc_exit"].map (ImportKey.mk "wasi_snapshot_preview1") := by
  rfl

/-- No two functions of WASI share a key. -/
theorem defineAll_wasi : defineAll [] wasi = .ok wasi := by
  have hnodup : (wasi.map Definition.key).Nodup := by
    rw [map_key_wasi]
    decide
  have hfree : wasi.find? (fun d => contains [] d.key) = none := by
    simp [contains]
  rw [defineAll_eq hnodup, hfree, List.nil_append]

theorem ofImports_of_nodup (h : imports.keys.Nodup) :
    ofImports imports =
      match imports.entries.find? fun e => wasi.contains e.key with
      | none => .ok (wasi ++ imports.entries.map fun e => ⟨e.key, e.link .plain⟩)
      | some e => .error (.wasm (.definedTwice e.key)) := by
  have hdefine : ofImports imports =
      wasi.defineAll (imports.entries.map fun e => ⟨e.key, e.link .plain⟩) := by
    rw [ofImports, defineAll, List.foldlM_map]
  have hkeys :
      (imports.entries.map fun e => (⟨e.key, e.link .plain⟩ : Definition)).map Definition.key =
        imports.keys := by
    rw [List.map_map]
    rfl
  rw [hdefine, defineAll_eq (hkeys ▸ h), List.find?_map]
  simp only [Function.comp_def]
  cases imports.entries.find? fun e => wasi.contains e.key <;> rfl

/-- How the functions of a set are defined after those of WASI, which take the first keys. -/
structure Registers (s : ImportSet) : Prop where
  first : defineAll [] wasi = .ok wasi
  ok_iff : ∀ ds, ofImports s = .ok ds ↔ (∀ key ∈ s.keys, key ∉ wasi.map Definition.key) ∧
    ds = wasi ++ s.entries.map fun e => ⟨e.key, e.link .plain⟩
  error_iff : ∀ f, ofImports s = .error f ↔ ∃ before e after, s.entries = before ++ e :: after ∧
    (∀ e' ∈ before, e'.key ∉ wasi.map Definition.key) ∧ e.key ∈ wasi.map Definition.key ∧
      f = .wasm (.definedTwice e.key)

theorem registers_of_nodup {imports : ImportSet} (h : imports.keys.Nodup) : Registers imports where
  first := defineAll_wasi
  ok_iff ds := by
    rw [ofImports_of_nodup h, ImportSet.keys, List.forall_mem_map]
    cases hfind : imports.entries.find? fun e => wasi.contains e.key with
    | none =>
      have hfree : ∀ e ∈ imports.entries, e.key ∉ wasi.map Definition.key :=
        fun e he => mt contains_iff.2 (List.find?_eq_none.1 hfind e he)
      rw [and_iff_right hfree, Except.ok.injEq, eq_comm]
    | some e =>
      have htaken := List.find?_some hfind
      refine iff_of_false (by rintro ⟨⟩) ?_
      rintro ⟨hfree, -⟩
      exact hfree e (List.mem_of_find?_eq_some hfind) (contains_iff.1 htaken)
  error_iff f := by
    have hfirst : ofImports imports = .error f ↔
        ∃ e, imports.entries.find? (fun e => wasi.contains e.key) = some e ∧
          f = .wasm (.definedTwice e.key) := by
      rw [ofImports_of_nodup h]
      cases imports.entries.find? fun e => wasi.contains e.key with
      | none => simp
      | some e => simp [eq_comm]
    rw [hfirst]
    constructor
    · rintro ⟨e, hfind, hf⟩
      obtain ⟨htaken, before, after, hsplit, hbefore⟩ := List.find?_eq_some_iff_append.1 hfind
      refine ⟨before, e, after, hsplit, fun e' he' => ?_, contains_iff.1 htaken, hf⟩
      exact mt contains_iff.2 (by simpa using hbefore e' he')
    · rintro ⟨before, e, after, hsplit, hbefore, htaken, hf⟩
      have hfree : ∀ e' ∈ before, (!wasi.contains e'.key) = true :=
        fun e' he' => by simpa using mt contains_iff.1 (hbefore e' he')
      refine ⟨e, List.find?_eq_some_iff_append.2 ?_, hf⟩
      exact ⟨contains_iff.2 htaken, before, after, hsplit, hfree⟩

end Definitions

/-- However a set of functions is defined, the last definition of each key counts, and the functions
that are left are defined after those of WASI unless one of them has a key of those. -/
theorem ImportSet.ofList_registers (definitions : List HostImport) :
    (ofList definitions).LastWins definitions ∧ Definitions.Registers (ofList definitions) := by
  have hlast := lastWins_ofList definitions
  exact ⟨hlast, Definitions.registers_of_nodup hlast.nodup⟩

/-- A function that is defined again goes to the end. -/
example (type type' : Wasm.FunctionType) (answer answer') :
    (ImportSet.ofList
      [⟨⟨"env", "f"⟩, type, answer⟩, ⟨⟨"env", "g"⟩, type, answer⟩,
        ⟨⟨"env", "f"⟩, type', answer'⟩]).entries =
      [⟨⟨"env", "g"⟩, type, answer⟩, ⟨⟨"env", "f"⟩, type', answer'⟩] := by
  rfl

end GuestHost
