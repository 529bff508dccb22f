/-!
# Reading JSON

A reader takes characters off the front of a text and fails at the first thing that is wrong, so of
two faults the one further left is reported.  This module has the readers of punctuation: blanks,
words, and what stands between the elements of an array and the members of an object.
-/

namespace GuestHost

namespace Json

/-- Why a text could not be read. -/
inductive Failure where
  /-- The text ends too early. -/
  | incomplete
  /-- The text is not JSON. -/
  | malformed
  /-- The text is JSON so far, but does not describe what it should. -/
  | mismatch (description : String)
  deriving DecidableEq, Repr

/-- Takes a value off the front of a text. -/
abbrev Reader (α : Type) := StateT (List Char) (Except Failure) α

namespace Reader

variable {α : Type}

/-- Fails. -/
def fail (failure : Failure) : Reader α := fun _ => .error failure

/-- Fails with a description of what does not fit. -/
def mismatch (description : String) : Reader α := fail (.mismatch description)

/-- Whether a character may stand between the parts of a JSON text. -/
def isBlank (c : Char) : Bool := c == ' ' || c == '\n' || c == '\t' || c == '\r'

/-- Skips blanks and looks at the character after them. -/
def peek : Reader (Option Char) := fun cs =>
  let cs := cs.dropWhile isBlank
  .ok (cs.head?, cs)

/-- Takes a character off the text. -/
def advance : Reader Unit := fun cs => .ok ((), cs.drop 1)

/-- Reads the given characters. -/
def expect : List Char → Reader Unit
  | [] => pure ()
  | c :: word => fun cs =>
    match cs with
    | [] => .error .incomplete
    | d :: rest => if c = d then expect word rest else .error .malformed

/-- Looks for the next element of an array, past the comma before it unless it is the first.  At the
closing bracket there is none. -/
def nextElement (first : Bool) : Reader Bool := do
  match ← peek with
  | none => fail .incomplete
  | some ']' => pure false
  | some c =>
    if first then pure true
    else if c = ',' then
      advance
      match ← peek with
      | none => fail .incomplete
      | some ']' => fail .malformed
      | some _ => pure true
    else fail .malformed

/-- Reads the bracket that closes an array. -/
def closeArray : Reader Unit := do
  match ← peek with
  | none => fail .incomplete
  | some ']' => advance
  | some _ => fail .malformed

/-- Looks for the next key of an object, past the comma before it unless it is the first.  At the
closing brace there is none. -/
def nextKey (first : Bool) : Reader Bool := do
  match ← peek with
  | none => fail .incomplete
  | some '\x7d' => pure false
  | some c =>
    if first then
      if c = '"' then pure true else fail .malformed
    else if c = ',' then
      advance
      match ← peek with
      | none => fail .incomplete
      | some '"' => pure true
      | some _ => fail .malformed
    else fail .malformed

/-- Reads the colon between a key and its value. -/
def colon : Reader Unit := do
  match ← peek with
  | none => fail .incomplete
  | some ':' => advance
  | some _ => fail .malformed

/-- Reads a whole text: nothing but blanks follows the value. -/
def whole (value : Reader α) : Reader α := do
  let a ← value
  match ← peek with
  | none => pure a
  | some _ => fail .malformed

/-- Runs a reader on a text. -/
def run (value : Reader α) (text : String) : Except Failure α :=
  (value text.toList).map Prod.fst

end Reader

end Json

end GuestHost
