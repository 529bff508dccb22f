import GuestHost.Suspension.Protocol
import GuestHost.Text.Quoted

/-!
# Import sets

The functions that a host provides besides those of WASI, each under its key.  A definition takes
the place of an earlier one with the same key, and goes to the end.
-/

namespace GuestHost

/-- A function that a host provides. -/
structure HostImport where
  key : ImportKey
  type : Wasm.FunctionType
  /-- The answer to a call. -/
  answer : List Wasm.Value → HostValue (List Wasm.Value)

/-- The functions that a host provides, in order. -/
structure ImportSet where
  entries : List HostImport := []

namespace ImportSet

/-- No functions. -/
def empty : ImportSet := {}

/-- Adds a function, and removes the one that had its key. -/
def define (s : ImportSet) (entry : HostImport) : ImportSet :=
  ⟨(s.entries.filter fun e => e.key ≠ entry.key) ++ [entry]⟩

/-- The set that a list of definitions builds up. -/
def ofList (entries : List HostImport) : ImportSet := entries.foldl define empty

/-- The number of functions. -/
def size (s : ImportSet) : Nat := s.entries.length

/-- Whether there are no functions. -/
def isEmpty (s : ImportSet) : Bool := s.entries.isEmpty

/-- The keys of the functions, in order. -/
def keys (s : ImportSet) : List ImportKey := s.entries.map HostImport.key

/-- The function with the given key. -/
def get? (s : ImportSet) (key : ImportKey) : Option HostImport :=
  s.entries.find? fun e => e.key = key

/-- How a set shows in a log. -/
def describe (s : ImportSet) : String := Quoted.debugList (s.keys.map ImportKey.dotted)

/-! ## What a definition does to the keys -/

theorem keys_define (s : ImportSet) (entry : HostImport) :
    (s.define entry).keys = (s.keys.filter fun key => key ≠ entry.key) ++ [entry.key] := by
  simp [define, keys, List.filter_map, Function.comp_def]

theorem nodup_keys_define {s : ImportSet} (h : s.keys.Nodup) (entry : HostImport) :
    (s.define entry).keys.Nodup := by
  rw [keys_define, List.nodup_append]
  refine ⟨h.filter _, by simp, ?_⟩
  intro a ha b hb
  simp at ha hb
  exact hb ▸ ha.2

end ImportSet

end GuestHost
