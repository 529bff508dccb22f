import GuestHost.Json.Reader
import GuestHost.Text.Digit

/-!
# JSON strings

The characters of a string up to the quote that closes it.  `Reader.string` decodes them, and
refuses half of a surrogate pair; `Reader.skipString` only looks for the end.
-/

namespace GuestHost

namespace Json

/-- Reads the four digits of a `\u` escape.  Fewer than four bytes are too few; of four or more, the
first four must be digits. -/
def hexWord (cs : List Char) : Except Failure Nat :=
  if (String.ofList (cs.take 4)).utf8ByteSize < 4 then .error .incomplete
  else
    match (cs.take 4).mapM Text.hexDigit? with
    | some ds => .ok (Text.ofDigits 16 ds)
    | none => .error .malformed

/-- Whether a code unit is the first half of a surrogate pair. -/
def isHighSurrogate (n : Nat) : Bool := 0xd800 ≤ n && n ≤ 0xdbff

/-- Whether a code unit is the second half of a surrogate pair. -/
def isLowSurrogate (n : Nat) : Bool := 0xdc00 ≤ n && n ≤ 0xdfff

/-- The character that an escape of one letter stands for. -/
def simpleEscape? (c : Char) : Option Char :=
  if c = '"' then some '"'
  else if c = '\\' then some '\\'
  else if c = '/' then some '/'
  else if c = 'b' then some '\x08'
  else if c = 'f' then some '\x0c'
  else if c = 'n' then some '\n'
  else if c = 'r' then some '\r'
  else if c = 't' then some '\t'
  else none

/-- Reads the second half of a surrogate pair, which must follow the first at once. -/
def lowSurrogate (cs : List Char) : Except Failure Nat :=
  match cs with
  | [] => .error .incomplete
  | c :: cs =>
    if c = '\\' then
      match cs with
      | [] => .error .incomplete
      | c :: cs =>
        if c = 'u' then
          match hexWord cs with
          | .error e => .error e
          | .ok n => if isLowSurrogate n then .ok n else .error .malformed
        else .error .malformed
    else .error .malformed

/-- The character of an escape, after its backslash, and the number of characters it takes up. -/
def escape (cs : List Char) : Except Failure (Char × Nat) :=
  match cs with
  | [] => .error .incomplete
  | c :: rest =>
    if c = 'u' then
      match hexWord rest with
      | .error e => .error e
      | .ok n =>
        if isLowSurrogate n then .error .malformed
        else if isHighSurrogate n then
          match lowSurrogate (rest.drop 4) with
          | .error e => .error e
          | .ok m => .ok (Char.ofNat ((n - 0xd800) * 0x400 + (m - 0xdc00) + 0x10000), 11)
        else .ok (Char.ofNat n, 5)
    else
      match simpleEscape? c with
      | some d => .ok (d, 1)
      | none => .error .malformed

/-- Decodes a string up to the closing quote. -/
def stringBody : List Char → Except Failure (List Char × List Char)
  | [] => .error .incomplete
  | c :: rest =>
    if c = '"' then .ok ([], rest)
    else if c = '\\' then
      match escape rest with
      | .error e => .error e
      | .ok (d, taken) => (stringBody (rest.drop taken)).map fun (ds, rest) => (d :: ds, rest)
    else if c.toNat < 0x20 then .error .malformed
    else (stringBody rest).map fun (ds, rest) => (c :: ds, rest)
termination_by cs => cs.length
decreasing_by all_goals simp; try omega

/-- The number of characters of an escape that is not decoded. -/
def escapeLength (cs : List Char) : Except Failure Nat :=
  match cs with
  | [] => .error .incomplete
  | c :: rest =>
    if c = 'u' then (hexWord rest).map fun _ => 5
    else if (simpleEscape? c).isSome then .ok 1
    else .error .malformed

/-- Skips a string up to the closing quote. -/
def skipStringBody : List Char → Except Failure (List Char)
  | [] => .error .incomplete
  | c :: rest =>
    if c = '"' then .ok rest
    else if c = '\\' then
      match escapeLength rest with
      | .error e => .error e
      | .ok taken => skipStringBody (rest.drop taken)
    else if c.toNat < 0x20 then .error .malformed
    else skipStringBody rest
termination_by cs => cs.length
decreasing_by all_goals simp; try omega

namespace Reader

/-- Reads a string whose opening quote is next. -/
def string : Reader String := do
  advance
  fun cs => (stringBody cs).map fun (ds, rest) => (String.ofList ds, rest)

/-- Skips a string whose opening quote is next. -/
def skipString : Reader Unit := do
  advance
  fun cs => (skipStringBody cs).map fun rest => ((), rest)

end Reader

end Json

end GuestHost
