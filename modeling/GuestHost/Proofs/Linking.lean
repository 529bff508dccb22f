import GuestHost.Instance

/-!
# What is linked

The functions that can be imported are those of WASI and then those of the import set, none of which
takes a key of the first, `Definitions.ofImports_eq`.  The functions of the host in a linked module
are among them, but for the stops that stand in for functions that nobody provides,
`Instance.link_linked`.
-/

namespace GuestHost

/-- A chain of computations succeeds only if each of them does. -/
theorem bind_eq_ok {ε α β : Type} {x : Except ε α} {f : α → Except ε β} {b : β}
    (h : x >>= f = .ok b) : ∃ a, x = .ok a ∧ f a = .ok b := by
  cases x with
  | error e => cases h
  | ok a => exact ⟨a, rfl, h⟩

theorem eq_ok_of_mapError {ε ε' α : Type} {x : Except ε α} {f : ε → ε'} {a : α}
    (h : x.mapError f = .ok a) : x = .ok a := by
  cases x with
  | error e => cases h
  | ok a' =>
    cases h
    rfl

theorem getElem?_mapM {ε α β : Type} {f : α → Except ε β} {as : List α} {bs : List β} {i : Nat}
    {a : α} (h : as.mapM f = .ok bs) (ha : as[i]? = some a) :
    ∃ b, bs[i]? = some b ∧ f a = .ok b := by
  induction as generalizing bs i with
  | nil => cases ha
  | cons first rest ih =>
    rw [List.mapM_cons] at h
    obtain ⟨b, hb, h⟩ := bind_eq_ok h
    obtain ⟨bs', hrest, h⟩ := bind_eq_ok h
    cases h
    cases i with
    | zero =>
      cases ha
      exact ⟨b, rfl, hb⟩
    | succ i =>
      rw [List.getElem?_cons_succ] at ha ⊢
      exact ih hrest ha

namespace Definitions

variable {ds ds' : Definitions} {d : Definition}

theorem define_eq_ok (h : ds.define d = .ok ds') :
    ds.contains d.key = false ∧ ds' = ds ++ [d] := by
  unfold define at h
  split at h
  · cases h
  · next hfree =>
    cases h
    exact ⟨Bool.eq_false_iff.2 hfree, rfl⟩

theorem foldlM_define_eq_ok {entries : List HostImport}
    (h : entries.foldlM (fun ds i => ds.define ⟨i.key, i.link .plain⟩) ds = .ok ds') :
    ds' = ds ++ entries.map (fun i => ⟨i.key, i.link .plain⟩) ∧
      ∀ i ∈ entries, ds.contains i.key = false := by
  induction entries generalizing ds with
  | nil =>
    cases h
    exact ⟨by simp, nofun⟩
  | cons i entries ih =>
    rw [List.foldlM_cons] at h
    obtain ⟨ds₁, hdefine, h⟩ := bind_eq_ok h
    obtain ⟨hfree, rfl⟩ := define_eq_ok hdefine
    obtain ⟨rfl, hrest⟩ := ih h
    refine ⟨by simp, ?_⟩
    rw [List.forall_mem_cons]
    refine ⟨hfree, fun j hj => ?_⟩
    have hboth := hrest j hj
    rw [contains, List.any_append, Bool.or_eq_false_iff] at hboth
    exact hboth.1

theorem ofImports_eq {imports : ImportSet} (h : ofImports imports = .ok ds) :
    ds = wasi ++ imports.entries.map (fun i => ⟨i.key, i.link .plain⟩) ∧
      ∀ i ∈ imports.entries, wasi.contains i.key = false :=
  foldlM_define_eq_ok h

theorem mem_foldl_withUnknown {asked : List (ImportKey × Wasm.ImportType)}
    (h : d ∈ asked.foldl withUnknown ds) :
    d ∈ ds ∨ ∃ key type, d = ⟨key, unknownImport key type⟩ := by
  induction asked generalizing ds with
  | nil => exact .inl h
  | cons one asked ih =>
    rcases ih h with hd | hunknown
    · unfold withUnknown at hd
      split at hd
      · exact .inl hd
      · next key type =>
        split at hd
        · exact .inl hd
        · rcases List.mem_append.1 hd with hd | hd
          · exact .inl hd
          · exact .inr ⟨key, type, List.mem_singleton.1 hd⟩
    · exact .inr hunknown

theorem function_mem_of_resolveOne {asked : ImportKey × Wasm.ImportType}
    {f : Wasm.HostFunction Host.Store} (h : ds.resolveOne asked = .ok f) :
    ∃ d ∈ ds, d.function = f := by
  unfold resolveOne at h
  split at h
  · cases h
  · split at h
    · cases h
    · next key type f' hf' =>
      split at h
      · cases h
        obtain ⟨d, hd, hfunction⟩ := Option.map_eq_some_iff.1 hf'
        exact ⟨d, List.mem_of_find?_eq_some hd, hfunction⟩
      · cases h

theorem function_mem_of_resolve {m : Wasm.Module} {fs : List (Wasm.HostFunction Host.Store)}
    (h : ds.resolve m = .ok fs) : ∀ f ∈ fs, ∃ d ∈ ds, d.function = f := by
  unfold resolve at h
  generalize m.imports = asked at h
  induction asked generalizing fs with
  | nil =>
    cases h
    nofun
  | cons one asked ih =>
    rw [List.mapM_cons] at h
    obtain ⟨f, hone, h⟩ := bind_eq_ok h
    obtain ⟨rest, hrest, h⟩ := bind_eq_ok h
    cases h
    rw [List.forall_mem_cons]
    exact ⟨function_mem_of_resolveOne hone, ih hrest⟩

end Definitions

namespace Instance

/-- What a linked module runs: its own code and the functions that were defined. -/
structure Linked (m : Wasm.Module) (imports : ImportSet) (ds : Definitions) (i : Instance) :
    Prop where
  definitions : Definitions.ofImports imports = .ok ds
  code : i.code = m
  functions : ∀ f, Wasm.Callee.host f ∈ i.environment.functions →
    (∃ d ∈ ds, d.function = f) ∨ ∃ key type, f = unknownImport key type

/-- A module that was just linked has not been asked for controls yet. -/
theorem link_linked {c : Config} {m : Wasm.Module} {imports : ImportSet}
    {streams : Table.StandardStreams} {i : Instance} (h : link c m imports streams = .ok i) :
    (∃ ds, Linked m imports ds i) ∧ i.store.host.controls = none := by
  unfold link at h
  obtain ⟨wasi, -, h⟩ := bind_eq_ok h
  obtain ⟨ds, hds, h⟩ := bind_eq_ok h
  obtain ⟨imported, himported, h⟩ := bind_eq_ok h
  obtain ⟨memory, -, h⟩ := bind_eq_ok h
  cases h
  refine ⟨⟨ds, hds, rfl, fun f hf => ?_⟩, rfl⟩
  have hmem : f ∈ imported := by simpa [linked] using hf
  have hresolve := eq_ok_of_mapError himported
  obtain ⟨d, hd, rfl⟩ := Definitions.function_mem_of_resolve hresolve f hmem
  -- Stops for what nobody provides are added only if the configuration asks for them.
  split at hd
  · rcases Definitions.mem_foldl_withUnknown hd with hd | ⟨key, type, rfl⟩
    · exact .inl ⟨d, hd, rfl⟩
    · exact .inr ⟨key, type, rfl⟩
  · exact .inl ⟨d, hd, rfl⟩

end Instance

end GuestHost
