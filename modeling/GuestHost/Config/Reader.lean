import GuestHost.Config
import GuestHost.Json.Text
import GuestHost.Json.Number
import GuestHost.Text.Quoted

/-!
# Reading a configuration

A configuration is a JSON object whose members are named after its fields, or an array of the fields
in order.  Fields that are left out keep their defaults, and members with other names are skipped;
the two records inside a configuration must be complete.  A record is described by its
`Json.Field`s, each with a name and a reader, and `Json.Record.read` reads any record from its
description.
-/

namespace GuestHost

namespace Json

namespace Reader

variable {α σ : Type}

/-! ## Values of the wrong kind -/

/-- Fails at a value that is not the expected one, once its first token is known. -/
def unexpected (expected : String) : Reader α := do
  let refuse (found : String) : Reader α :=
    mismatch ("invalid type: " ++ found ++ ", expected " ++ expected)
  match ← peek with
  | none => fail .incomplete
  | some c =>
    if c = 'n' then
      expect ['n', 'u', 'l', 'l']
      refuse "null"
    else if c = 't' then
      expect ['t', 'r', 'u', 'e']
      refuse "boolean `true`"
    else if c = 'f' then
      expect ['f', 'a', 'l', 's', 'e']
      refuse "boolean `false`"
    else if c = '-' ∨ Number.isDigit c then
      refuse (← number).describe
    else if c = '"' then
      refuse ("string " ++ Quoted.debug (← string))
    else if c = '[' then refuse "sequence"
    else if c = '\x7b' then refuse "map"
    else fail .malformed

/-! ## Values of the right kind -/

/-- Reads a text. -/
def text : Reader String := do
  if (← peek) = some '"' then string else unexpected "a string"

/-- Reads a truth value. -/
def bool : Reader Bool := do
  match ← peek with
  | some 't' => expect ['t', 'r', 'u', 'e']; pure true
  | some 'f' => expect ['f', 'a', 'l', 's', 'e']; pure false
  | _ => unexpected "a boolean"

/-- Reads an integer from 0 to below `limit`, for a type with the given name. -/
def natural (limit : Nat) (type : String) : Reader Nat := do
  match ← peek with
  | some c =>
    if c = '-' ∨ Number.isDigit c then
      match ← number with
      | .natural n =>
        if n.toNat < limit then pure n.toNat
        else
          mismatch ("invalid value: " ++ (Number.natural n).describe ++ ", expected " ++ type)
      | .negative m =>
        mismatch ("invalid value: " ++ (Number.negative m).describe ++ ", expected " ++ type)
      | .double bits =>
        mismatch ("invalid type: " ++ (Number.double bits).describe ++ ", expected " ++ type)
    else unexpected type
  | none => unexpected type

/-- Reads a 32-bit word. -/
def u32 : Reader UInt32 := do pure (UInt32.ofNat (← natural UInt32.size "u32"))

/-- Reads a 64-bit word. -/
def u64 : Reader UInt64 := do pure (UInt64.ofNat (← natural UInt64.size "u64"))

/-- Reads a size, which is a 64-bit word. -/
def usize : Reader UInt64 := do pure (UInt64.ofNat (← natural UInt64.size "usize"))

/-- Reads a byte. -/
def u8 : Reader UInt8 := do pure (UInt8.ofNat (← natural UInt8.size "u8"))

/-- Reads `null` or a value. -/
def optional (value : Reader α) : Reader (Option α) := do
  if (← peek) = some 'n' then
    expect ['n', 'u', 'l', 'l']
    pure none
  else pure (some (← value))

/-- Reads the elements of an array up to its closing bracket. -/
def elements (element : Reader α) : (fuel : Nat) → (first : Bool) → Reader (List α)
  | 0, _ => fail .malformed
  | fuel + 1, first => do
    if ← nextElement first then
      let a ← element
      let rest ← elements element fuel false
      pure (a :: rest)
    else pure []

/-- The number of characters that are left. -/
def remaining : Reader Nat := fun cs => .ok (cs.length, cs)

/-- Reads an array of any length. -/
def array (element : Reader α) : Reader (List α) := do
  if (← peek) = some '[' then
    advance
    let items ← elements element ((← remaining) + 1) true
    closeArray
    pure items
  else unexpected "a sequence"

/-- Reads an array of two texts. -/
def pair : Reader (String × String) := do
  let tooShort (n : Nat) : Reader (String × String) :=
    mismatch ("invalid length " ++ toString n ++ ", expected a tuple of size 2")
  if (← peek) = some '[' then
    advance
    if !(← nextElement true) then tooShort 0
    else
      let a ← text
      if !(← nextElement false) then tooShort 1
      else
        let b ← text
        closeArray
        pure (a, b)
  else unexpected "a tuple of size 2"

/-! ## Values that nobody asks for -/

/-- What the reader of a skipped value waits for. -/
inductive Skipping where
  /-- A value. -/
  | value
  /-- The first item of an array or object, or its end. -/
  | opened
  /-- What follows a value. -/
  | after
  deriving DecidableEq, Repr

/-- Skips the key of a member and its colon. -/
def skipKey : Reader Unit := do
  match ← peek with
  | none => fail .incomplete
  | some '"' => skipString; colon
  | some _ => fail .malformed

/-- Skips up to the next item of the innermost array or object; `isObject` says which it is. -/
def skipToItem (isObject : Bool) : Reader Unit :=
  if isObject then skipKey else pure ()

/-- The bracket that closes an array or object. -/
def closing (isObject : Bool) : Char := if isObject then '\x7d' else ']'

/-- Skips the rest of a value that lies inside the given arrays and objects, the innermost first. -/
def skipInside : (fuel : Nat) → List Bool → Skipping → Reader Unit
  | 0, _, _ => fail .malformed
  | _ + 1, [], .opened => fail .malformed
  | _ + 1, [], .after => pure ()
  | fuel + 1, frames, .value => do
    match ← peek with
    | none => fail .incomplete
    | some c =>
      if c = 'n' then
        expect ['n', 'u', 'l', 'l']
        skipInside fuel frames .after
      else if c = 't' then
        expect ['t', 'r', 'u', 'e']
        skipInside fuel frames .after
      else if c = 'f' then
        expect ['f', 'a', 'l', 's', 'e']
        skipInside fuel frames .after
      else if c = '-' ∨ Number.isDigit c then
        skipNumber
        skipInside fuel frames .after
      else if c = '"' then
        skipString
        skipInside fuel frames .after
      else if c = '[' then
        advance
        skipInside fuel (false :: frames) .opened
      else if c = '\x7b' then
        advance
        skipInside fuel (true :: frames) .opened
      else fail .malformed
  | fuel + 1, frame :: frames, .opened => do
    match ← peek with
    | none => fail .incomplete
    | some c =>
      if c = closing frame then
        advance
        skipInside fuel frames .after
      else
        skipToItem frame
        skipInside fuel (frame :: frames) .value
  | fuel + 1, frame :: frames, .after => do
    match ← peek with
    | none => fail .incomplete
    | some c =>
      if c = closing frame then
        advance
        skipInside fuel frames .after
      else if c = ',' then
        advance
        skipToItem frame
        skipInside fuel (frame :: frames) .value
      else fail .malformed

/-- Skips a value. -/
def skip : Reader Unit := do skipInside (2 * (← remaining) + 2) [] .value

end Reader

/-! ## Records -/

/-- A field of a record: its name, and how its value changes the record. -/
structure Field (σ : Type) where
  name : String
  read : σ → Reader σ

/-- A kind of record. -/
structure Record (σ : Type) where
  /-- What a message calls the record. -/
  title : String
  fields : List (Field σ)
  /-- Whether every field must be given. -/
  complete : Bool

namespace Record

variable {σ : Type} (r : Record σ)

/-- Reads the members of an object up to its closing brace, and gives the names of those that are
fields. -/
def members : (fuel : Nat) → (first : Bool) → (seen : List String) → σ → Reader (List String × σ)
  | 0, _, _, _ => .fail .malformed
  | fuel + 1, first, seen, s => do
    if ← Reader.nextKey first then
      let key ← Reader.string
      match r.fields.find? fun f => f.name == key with
      | none =>
        Reader.colon
        Reader.skip
        members fuel false seen s
      | some f =>
        if key ∈ seen then Reader.mismatch ("duplicate field `" ++ key ++ "`")
        else
          Reader.colon
          let s ← f.read s
          members fuel false (key :: seen) s
    else pure (seen, s)

/-- Reads a record that is given as an object. -/
def ofObject (s : σ) : Reader σ := do
  Reader.advance
  let (seen, s) ← r.members ((← Reader.remaining) + 1) true [] s
  match r.fields.find? fun f => r.complete && f.name ∉ seen with
  | some f => Reader.mismatch ("missing field `" ++ f.name ++ "`")
  | none =>
    Reader.advance
    pure s

/-- Reads the fields of a record one after the other. -/
def inOrder : (index : Nat) → List (Field σ) → σ → Reader σ
  | _, [], s => pure s
  | index, f :: fields, s => do
    if ← Reader.nextElement (index == 0) then
      let s ← f.read s
      inOrder (index + 1) fields s
    else if r.complete then
      Reader.mismatch
        ("invalid length " ++ toString index ++ ", expected " ++ r.title ++ " with " ++
          toString r.fields.length ++ " elements")
    else pure s

/-- Reads a record that is given as an array. -/
def ofArray (s : σ) : Reader σ := do
  Reader.advance
  let s ← r.inOrder 0 r.fields s
  Reader.closeArray
  pure s

/-- Reads a record over the values it has so far. -/
def read (s : σ) : Reader σ := do
  match ← Reader.peek with
  | some '[' => r.ofArray s
  | some '\x7b' => r.ofObject s
  | _ => Reader.unexpected r.title

end Record

end Json

/-! ## The records of a configuration -/

namespace Config

open Json

/-- The host descriptors of the standard streams. -/
def standardFds : Record StandardFds where
  title := "struct StdioFds"
  complete := true
  fields :=
    [⟨"stdin", fun s => do pure { s with stdin := ← Reader.u32 }⟩,
      ⟨"stdout", fun s => do pure { s with stdout := ← Reader.u32 }⟩,
      ⟨"stderr", fun s => do pure { s with stderr := ← Reader.u32 }⟩]

/-- The placement of the scratch region. -/
def scratchRecord : Record Suspension.Scratch where
  title := "struct AsyncifyConfig"
  complete := true
  fields :=
    [⟨"data_ptr", fun s => do pure { s with dataPtr := ← Reader.u32 }⟩,
      ⟨"unwind_start", fun s => do pure { s with start := ← Reader.u32 }⟩,
      ⟨"unwind_end", fun s => do pure { s with stop := ← Reader.u32 }⟩]

/-- A configuration. -/
def record : Record Config where
  title := "struct ShimConfig"
  complete := false
  fields :=
    [⟨"args", fun c => do pure { c with args := ← Reader.array Reader.text }⟩,
      ⟨"env", fun c => do pure { c with env := ← Reader.array Reader.pair }⟩,
      ⟨"stdio", fun c => do pure { c with stdio := ← standardFds.read {} }⟩,
      ⟨"table_size", fun c => do pure { c with tableSize := ← Reader.usize }⟩,
      ⟨"return_on_exit", fun c => do pure { c with returnOnExit := ← Reader.bool }⟩,
      ⟨"asyncify", fun c => do pure { c with scratch := ← scratchRecord.read {} }⟩,
      ⟨"max_memory", fun c => do pure { c with maxMemory := ← Reader.usize }⟩,
      ⟨"fuel_limit", fun c => do pure { c with fuelLimit := ← Reader.optional Reader.u64 }⟩,
      ⟨"optimization_level", fun c => do pure { c with optimizationLevel := ← Reader.u8 }⟩,
      ⟨"trap_unknown_imports", fun c => do pure { c with trapUnknownImports := ← Reader.bool }⟩]

/-- Reads a configuration from its text. -/
def ofJson (text : String) : Except Fault Config :=
  match Reader.run (Reader.whole (record.read {})) text with
  | .ok c => .ok c
  | .error failure => .error (.json failure)

/-- Reads a configuration from the contents of a file, if there is one. -/
def ofFile (contents : Option Bytes) : Except Fault Config :=
  match contents with
  | none => .error (.file .notFound)
  | some bytes =>
    match Utf8.decode? bytes with
    | none => .error (.file .notUtf8)
    | some text => ofJson text

end Config

end GuestHost
