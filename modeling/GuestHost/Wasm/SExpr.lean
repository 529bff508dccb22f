import GuestHost.Bytes
import GuestHost.Text.Digit
import GuestHost.Text.Utf8

/-!
# Parenthesised text

The text format of WebAssembly is made of words, strings and parenthesised lists.  `SExpr.read?`
reads such a text in two passes: `Lexer` is an automaton that turns characters into tokens, and
`SExpr.ofTokens?` is a stack that turns tokens into lists.
-/

namespace GuestHost

namespace Wasm

/-- A piece of parenthesised text. -/
inductive SExpr where
  /-- A word: a keyword, a name or a number. -/
  | word (text : String)
  /-- A string, which may hold any bytes. -/
  | string (bytes : Bytes)
  | list (items : List SExpr)
  deriving Repr, Inhabited

/-- What a text is cut into. -/
inductive Token where
  | leftParen
  | rightParen
  | word (text : String)
  | string (bytes : Bytes)
  deriving DecidableEq, Repr

/-! ## Characters to tokens -/

namespace Lexer

/-- Whether a character may stand in a word. -/
def isWordChar (c : Char) : Bool :=
  c.isAlphanum || "!#$%&'*+-./:<=>?@\\^_`|~".toList.contains c

/-- Whether a character only keeps tokens apart. -/
def isBlank (c : Char) : Bool := c = ' ' || c = '\t' || c = '\n' || c = '\r'

/-- Where an automaton stands in a text.  Words and strings are kept in reverse. -/
inductive Mode where
  /-- Between tokens. -/
  | between
  /-- Right after a string, where no word may begin. -/
  | closed
  /-- After a parenthesis that may begin a comment. -/
  | paren
  /-- After a semicolon that may begin a comment. -/
  | semicolon
  /-- In a comment up to the end of the line. -/
  | line
  /-- In a comment between parentheses, after its character `last`. -/
  | comment (depth : Nat) (last : Char)
  | word (text : List Char)
  | string (bytes : Bytes)
  /-- After a backslash in a string. -/
  | escape (bytes : Bytes)
  /-- After a backslash and the first of two hexadecimal digits. -/
  | byte (bytes : Bytes) (high : Nat)
  /-- In the escape of a code point, before its brace. -/
  | brace (bytes : Bytes)
  /-- In the escape of a code point. -/
  | codePoint (bytes : Bytes) (value : Nat) (empty : Bool)
  deriving Repr

/-- An automaton with the tokens so far, in reverse. -/
structure State where
  tokens : List Token := []
  mode : Mode := .between

/-- Begins a new token, or passes over a blank. -/
def fresh (tokens : List Token) (c : Char) : Option State :=
  if isBlank c then some ⟨tokens, .between⟩
  else if c = '(' then some ⟨tokens, .paren⟩
  else if c = ')' then some ⟨.rightParen :: tokens, .between⟩
  else if c = ';' then some ⟨tokens, .semicolon⟩
  else if c = '"' then some ⟨tokens, .string []⟩
  else if isWordChar c then some ⟨tokens, .word [c]⟩
  else none

/-- The byte that a letter after a backslash stands for. -/
def escaped? (c : Char) : Option UInt8 :=
  if c = 't' then some 9
  else if c = 'n' then some 10
  else if c = 'r' then some 13
  else if c = '"' then some 34
  else if c = '\'' then some 39
  else if c = '\\' then some 92
  else none

/-- Puts the bytes of a character before reversed bytes. -/
def pushChar (bytes : Bytes) (c : Char) : Bytes := (String.utf8EncodeChar c).reverse ++ bytes

/-- The code point with the given number. -/
def char? (n : Nat) : Option Char := if n.isValidChar then some (Char.ofNat n) else none

/-- Takes one character. -/
def step (s : State) (c : Char) : Option State :=
  match s.mode with
  | .between => fresh s.tokens c
  | .closed => if isWordChar c || c = '"' then none else fresh s.tokens c
  | .paren => if c = ';' then some ⟨s.tokens, .comment 0 ' '⟩ else fresh (.leftParen :: s.tokens) c
  | .semicolon => if c = ';' then some ⟨s.tokens, .line⟩ else none
  | .line => some ⟨s.tokens, if c = '\n' || c = '\r' then .between else .line⟩
  | .comment depth last =>
    if last = ';' ∧ c = ')' then
      some ⟨s.tokens, if depth = 0 then .between else .comment (depth - 1) ' '⟩
    else if last = '(' ∧ c = ';' then some ⟨s.tokens, .comment (depth + 1) ' '⟩
    else some ⟨s.tokens, .comment depth c⟩
  | .word text =>
    if isWordChar c then some ⟨s.tokens, .word (c :: text)⟩
    else if c = '"' then none
    else fresh (.word (String.ofList text.reverse) :: s.tokens) c
  | .string bytes =>
    if c = '"' then some ⟨.string bytes.reverse :: s.tokens, .closed⟩
    else if c = '\\' then some ⟨s.tokens, .escape bytes⟩
    else if c.toNat < 32 || c.toNat = 127 then none
    else some ⟨s.tokens, .string (pushChar bytes c)⟩
  | .escape bytes =>
    if c = 'u' then some ⟨s.tokens, .brace bytes⟩
    else
      match escaped? c, Text.hexDigit? c with
      | some b, _ => some ⟨s.tokens, .string (b :: bytes)⟩
      | none, some high => some ⟨s.tokens, .byte bytes high⟩
      | none, none => none
  | .byte bytes high =>
    (Text.hexDigit? c).map fun low => ⟨s.tokens, .string (UInt8.ofNat (16 * high + low) :: bytes)⟩
  | .brace bytes => if c = '\x7b' then some ⟨s.tokens, .codePoint bytes 0 true⟩ else none
  | .codePoint bytes value empty =>
    if c = '\x7d' then
      if empty then none else (char? value).map fun c => ⟨s.tokens, .string (pushChar bytes c)⟩
    else
      (Text.hexDigit? c).bind fun digit =>
        let value := 16 * value + digit
        if value < 0x110000 then some ⟨s.tokens, .codePoint bytes value false⟩ else none

/-- The tokens of a text that has come to its end. -/
def finish (s : State) : Option (List Token) :=
  match s.mode with
  | .between | .closed | .line => some s.tokens.reverse
  | .word text => some (.word (String.ofList text.reverse) :: s.tokens).reverse
  | .paren => some (.leftParen :: s.tokens).reverse
  | _ => none

/-- The tokens of a text. -/
def tokens? (cs : List Char) : Option (List Token) := cs.foldlM step {} >>= finish

end Lexer

/-! ## Tokens to lists -/

namespace SExpr

/-- The lists that are open, the innermost first, each in reverse.  The last one is the text. -/
abbrev Stack := List (List SExpr)

/-- Adds an item to the innermost list. -/
def add (item : SExpr) : Stack → Stack
  | [] => [[item]]
  | items :: rest => (item :: items) :: rest

/-- Takes one token. -/
def shift (stack : Stack) : Token → Option Stack
  | .leftParen => some ([] :: stack)
  | .rightParen =>
    match stack with
    | items :: outer :: rest => some (add (.list items.reverse) (outer :: rest))
    | _ => none
  | .word text => some (add (.word text) stack)
  | .string bytes => some (add (.string bytes) stack)

/-- The items that tokens spell. -/
def ofTokens? (tokens : List Token) : Option (List SExpr) :=
  match tokens.foldlM shift [[]] with
  | some [items] => some items.reverse
  | _ => none

/-- The items of a text. -/
def read? (cs : List Char) : Option (List SExpr) := Lexer.tokens? cs >>= ofTokens?

end SExpr

end Wasm

end GuestHost
