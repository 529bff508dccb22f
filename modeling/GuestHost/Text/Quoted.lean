import GuestHost.Text.Hidden

/-!
# Quoted text

Two ways to write a text between double quotes.  `Quoted.debug` is for messages: hidden characters
become `\u` escapes with braces.  `Quoted.json` is for JSON documents: only what a JSON string must
escape is escaped.
-/

namespace GuestHost

namespace Quoted

/-- The lower-case hexadecimal digits of a number. -/
def hex (n : Nat) : List Char := Nat.toDigits 16 n

/-- A character of a text quoted for a message. -/
def debugChar (c : Char) : List Char :=
  if c = '"' then ['\\', '"']
  else if c = '\\' then ['\\', '\\']
  else if c = '\n' then ['\\', 'n']
  else if c = '\r' then ['\\', 'r']
  else if c = '\t' then ['\\', 't']
  else if c = '\x00' then ['\\', '0']
  else if Text.isHidden c then ['\\', 'u', '\x7b'] ++ hex c.toNat ++ ['\x7d']
  else [c]

/-- A text quoted for a message. -/
def debug (s : String) : String := String.ofList ('"' :: s.toList.flatMap debugChar ++ ['"'])

/-- A list of texts quoted for a message. -/
def debugList (ss : List String) : String := "[" ++ ", ".intercalate (ss.map debug) ++ "]"

/-- A character of a JSON string. -/
def jsonChar (c : Char) : List Char :=
  if c = '"' then ['\\', '"']
  else if c = '\\' then ['\\', '\\']
  else if c = '\n' then ['\\', 'n']
  else if c = '\r' then ['\\', 'r']
  else if c = '\t' then ['\\', 't']
  else if c = '\x08' then ['\\', 'b']
  else if c = '\x0c' then ['\\', 'f']
  else if c.toNat < 32 then
    ['\\', 'u', '0', '0'] ++ (if c.toNat < 16 then ['0'] else []) ++ hex c.toNat
  else [c]

/-- A JSON string. -/
def json (s : String) : String := String.ofList ('"' :: s.toList.flatMap jsonChar ++ ['"'])

end Quoted

end GuestHost
