import GuestHost.Host

/-!
# Linking

The functions that a guest may import are those of WASI and those of an import set, each defined
under its key.  `Definitions.ofImports` puts them together, which fails if a key is taken, and
`Definitions.resolve?` finds what a module asks for.
-/

namespace GuestHost

/-- A function that can be imported under a key. -/
structure Definition where
  key : ImportKey
  function : Wasm.HostFunction Host.Store

/-- The functions that can be imported, in the order in which they were defined. -/
abbrev Definitions := List Definition

namespace Definitions

/-- Whether a key is taken. -/
def contains (ds : Definitions) (key : ImportKey) : Bool := ds.any fun d => d.key = key

/-- The function with the given key. -/
def get? (ds : Definitions) (key : ImportKey) : Option (Wasm.HostFunction Host.Store) :=
  (ds.find? fun d => d.key = key).map Definition.function

/-- Defines a function under a key that is not taken. -/
def define (ds : Definitions) (d : Definition) : Except Fault Definitions :=
  if ds.contains d.key then .error (.wasm (.definedTwice d.key)) else .ok (ds ++ [d])

/-- The key of a function of WASI. -/
def wasiKey (name : String) : ImportKey := ⟨Wasi.moduleName, name⟩

/-- The functions of WASI. -/
def wasi : Definitions :=
  WasiFunction.all.map (fun f => ⟨wasiKey f.name, f.link .plain⟩) ++
    [⟨wasiKey Wasi.exitName, exitFunction .plain⟩]

/-- The functions of WASI and those of an import set. -/
def ofImports (imports : ImportSet) : Except Fault Definitions :=
  imports.entries.foldlM (fun ds i => ds.define ⟨i.key, i.link .plain⟩) wasi

/-- Defines a function that a module asks for and nobody provides, so that it stops the guest. -/
def withUnknown (ds : Definitions) : ImportKey × Wasm.ImportType → Definitions
  | (_, .memory _) => ds
  | (key, .function type) =>
    if ds.contains key then ds else ds ++ [⟨key, unknownImport key type⟩]

/-- The definition of one thing that a module asks for.  Nobody provides a memory. -/
def resolveOne (ds : Definitions) :
    ImportKey × Wasm.ImportType → Except String (Wasm.HostFunction Host.Store)
  | (key, .memory _) => .error ("unknown import: " ++ key.quoted ++ " has not been defined")
  | (key, .function type) =>
    match ds.get? key with
    | none => .error ("unknown import: " ++ key.quoted ++ " has not been defined")
    | some f =>
      if f.type = type then .ok f else .error ("incompatible import type for " ++ key.quoted)

/-- The functions that a module asks for, in order. -/
def resolve (ds : Definitions) (m : Wasm.Module) :
    Except String (List (Wasm.HostFunction Host.Store)) :=
  m.imports.mapM ds.resolveOne

end Definitions

end GuestHost
