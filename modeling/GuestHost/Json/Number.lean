import GuestHost.Json.Reader
import GuestHost.Number.Shortest

/-!
# JSON numbers

A number without a point and an exponent is an integer if it fits 64 bits.  Any other number is a
double: the leading digits that fit 64 bits, rounded, and then multiplied or divided by a rounded
power of ten.  A number too large for a double is malformed.  A number that nobody asks for is only
checked for its form.
-/

namespace GuestHost

namespace Json

/-- A number as it was written. -/
inductive Number where
  /-- An integer that is not negative. -/
  | natural (n : UInt64)
  /-- A negative integer, by its magnitude. -/
  | negative (magnitude : Nat)
  /-- Any other number, by the bits of its double. -/
  | double (bits : Nat)
  deriving DecidableEq, Repr

namespace Number

/-- What a message calls a number. -/
def describe : Number → String
  | natural n => "integer `" ++ toString n ++ "`"
  | negative magnitude => "integer `-" ++ toString magnitude ++ "`"
  | double bits => "floating point `" ++ Decimal.compactText bits ++ "`"

/-- Whether a character is a decimal digit. -/
def isDigit (c : Char) : Bool := '0' ≤ c && c ≤ '9'

/-- The value of a decimal digit. -/
def digit (c : Char) : Nat := c.toNat - '0'.toNat

/-- Puts digits behind a significand for as long as it fits 64 bits, and gives the digits left. -/
def extend : (significand : Nat) → List Char → Nat × List Char
  | significand, [] => (significand, [])
  | significand, c :: cs =>
    if significand * 10 + digit c < UInt64.size then extend (significand * 10 + digit c) cs
    else (significand, c :: cs)

/-- Ten to a power as a double. -/
def powerOfTen (e : Nat) : Nat := BinaryFormat.binary64.round (Nat.pow 10 e) 1

/-- Divides a double by ten to a power, in steps of at most 308 powers. -/
def shiftDown (bits e : Nat) : Nat :=
  if h : 308 < e then
    if bits = 0 then 0
    else shiftDown (BinaryFormat.binary64.div bits (powerOfTen 308)) (e - 308)
  else BinaryFormat.binary64.div bits (powerOfTen e)
termination_by e
decreasing_by omega

/-- The double of a significand times ten to a power; none if it is too large. -/
def scaled (significand : Nat) (e : Int) : Except Failure Nat :=
  let bits := BinaryFormat.binary64.round significand 1
  if e < 0 then .ok (shiftDown bits (-e).toNat)
  else if 308 < e then if significand = 0 then .ok 0 else .error .malformed
  else
    let product := BinaryFormat.binary64.mul bits (powerOfTen e.toNat)
    if product = BinaryFormat.binary64.infinityBits then .error .malformed else .ok product

/-- A double with a sign. -/
def signed (isNegative : Bool) (bits : Nat) : Number :=
  .double (if isNegative then bits + BinaryFormat.binary64.signBit else bits)

/-- The largest exponent that is taken at its word. -/
def exponentLimit : Nat := 1 <<< 31

/-- Reads an exponent, after its letter, and completes the number. -/
def exponent (isNegative : Bool) (significand : Nat) (e : Int) (cs : List Char) :
    Except Failure (Number × List Char) :=
  let (down, cs) :=
    match cs with
    | '+' :: rest => (false, rest)
    | '-' :: rest => (true, rest)
    | _ => (false, cs)
  let digits := cs.takeWhile isDigit
  let rest := cs.dropWhile isDigit
  if digits.isEmpty then .error (if rest.isEmpty then .incomplete else .malformed)
  else
    let n := digits.foldl (fun n c => n * 10 + digit c) 0
    if exponentLimit ≤ n then
      if significand = 0 ∨ down then .ok (signed isNegative 0, rest) else .error .malformed
    else
      (scaled significand (if down then e - n else e + n)).map fun bits =>
        (signed isNegative bits, rest)

/-- Completes a number that is not an integer, at the letter of its exponent or after its digits. -/
def finish (isNegative : Bool) (significand : Nat) (e : Int) (cs : List Char) :
    Except Failure (Number × List Char) :=
  match cs with
  | c :: rest =>
    if c = 'e' ∨ c = 'E' then exponent isNegative significand e rest
    else (scaled significand e).map fun bits => (signed isNegative bits, cs)
  | [] => (scaled significand e).map fun bits => (signed isNegative bits, cs)

/-- Reads the digits after a point and completes the number.  Digits that do not fit are dropped. -/
def fraction (isNegative : Bool) (significand : Nat) (e : Int) (cs : List Char) :
    Except Failure (Number × List Char) :=
  let digits := cs.takeWhile isDigit
  let rest := cs.dropWhile isDigit
  if digits.isEmpty then .error (if rest.isEmpty then .incomplete else .malformed)
  else
    let (significand, dropped) := extend significand digits
    finish isNegative significand (e - (digits.length - dropped.length : Nat)) rest

/-- An integer as written. -/
def integer (isNegative : Bool) (n : Nat) : Number :=
  if isNegative then
    if n = 0 ∨ 1 <<< 63 < n then signed true (BinaryFormat.binary64.round n 1) else .negative n
  else .natural (UInt64.ofNat n)

/-- Reads a number after its sign. -/
def read (isNegative : Bool) (cs : List Char) : Except Failure (Number × List Char) :=
  let digits := cs.takeWhile isDigit
  let rest := cs.dropWhile isDigit
  if digits.isEmpty then .error (if rest.isEmpty then .incomplete else .malformed)
  else if digits.head? = some '0' ∧ 1 < digits.length then .error .malformed
  else
    let (significand, dropped) := extend 0 digits
    match rest with
    | '.' :: rest => fraction isNegative significand dropped.length rest
    | 'e' :: _ | 'E' :: _ => finish isNegative significand dropped.length rest
    | _ =>
      if dropped.isEmpty then .ok (integer isNegative significand, rest)
      else finish isNegative significand dropped.length rest

/-- Skips digits, of which there must be one. -/
def skipDigits (cs : List Char) : Except Failure (List Char) :=
  if (cs.takeWhile isDigit).isEmpty then .error .malformed else .ok (cs.dropWhile isDigit)

/-- Skips an exponent, if there is one. -/
def skipExponent (cs : List Char) : Except Failure (List Char) :=
  match cs with
  | c :: rest =>
    if c = 'e' ∨ c = 'E' then
      match rest with
      | '+' :: rest | '-' :: rest => skipDigits rest
      | _ => skipDigits rest
    else .ok cs
  | [] => .ok cs

/-- Skips a number after its sign. -/
def skip (cs : List Char) : Except Failure (List Char) :=
  let digits := cs.takeWhile isDigit
  let rest := cs.dropWhile isDigit
  if digits.isEmpty then .error .malformed
  else if digits.head? = some '0' ∧ 1 < digits.length then .error .malformed
  else
    match rest with
    | '.' :: rest => (skipDigits rest).bind skipExponent
    | _ => skipExponent rest

end Number

namespace Reader

/-- Reads a number whose sign or first digit is next. -/
def number : Reader Number := fun cs =>
  match cs with
  | '-' :: rest => Number.read true rest
  | _ => Number.read false cs

/-- Skips a number whose sign or first digit is next. -/
def skipNumber : Reader Unit := fun cs =>
  match cs with
  | '-' :: rest => (Number.skip rest).map fun rest => ((), rest)
  | _ => (Number.skip cs).map fun rest => ((), rest)

end Reader

end Json

end GuestHost
