import GuestHost.Text.Digit

/-!
# Numbers on a command line

Decimal integers with an optional sign.  Reading stops at the first character that is wrong or makes
the number too large.
-/

namespace GuestHost

namespace CommandLine

/-- Why a text is not an integer of the required type. -/
inductive NumberFailure where
  | empty
  | invalidDigit
  | tooLarge
  | tooSmall
  /-- The integer lies outside a range. -/
  | outOfRange (value low high : Int)
  deriving DecidableEq, Repr

/-- The wording of a failure. -/
def NumberFailure.message : NumberFailure → String
  | empty => "cannot parse integer from empty string"
  | invalidDigit => "invalid digit found in string"
  | tooLarge => "number too large to fit in target type"
  | tooSmall => "number too small to fit in target type"
  | outOfRange value low high =>
    toString value ++ " is not in " ++ toString low ++ "..=" ++ toString high

/-- Reads digits behind a number, which must stay within a limit. -/
def digits (limit : Nat) (excess : NumberFailure) : Nat → List Char → Except NumberFailure Nat
  | n, [] => .ok n
  | n, c :: cs =>
    match Text.decimalDigit? c with
    | none => .error .invalidDigit
    | some d => if n * 10 + d ≤ limit then digits limit excess (n * 10 + d) cs else .error excess

/-- Reads the digits of an unsigned number, of which there must be one. -/
def magnitude (limit : Nat) (excess : NumberFailure) (cs : List Char) : Except NumberFailure Nat :=
  if cs.isEmpty then .error .invalidDigit else digits limit excess 0 cs

/-- Reads an unsigned integer of 64 bits, which may have a plus in front. -/
def unsigned (text : String) : Except NumberFailure Nat :=
  match text.toList with
  | [] => .error .empty
  | '+' :: cs => magnitude (UInt64.size - 1) .tooLarge cs
  | cs => magnitude (UInt64.size - 1) .tooLarge cs

/-- Reads a signed integer of 64 bits. -/
def signed (text : String) : Except NumberFailure Int :=
  match text.toList with
  | [] => .error .empty
  | '-' :: cs => (magnitude (1 <<< 63) .tooSmall cs).map fun n => -n
  | '+' :: cs => (magnitude ((1 <<< 63) - 1) .tooLarge cs).map Int.ofNat
  | cs => (magnitude ((1 <<< 63) - 1) .tooLarge cs).map Int.ofNat

/-- Reads an integer that lies in a range. -/
def inRange (low high : Int) (text : String) : Except NumberFailure Int :=
  match signed text with
  | .error e => .error e
  | .ok n => if low ≤ n ∧ n ≤ high then .ok n else .error (.outOfRange n low high)

/-- Whether a text looks like a number without a sign: digits, a point that is not in front, and an
exponent that is neither in front nor empty. -/
def looksNumeric (cs : List Char) : Bool :=
  let (significand, exponent) := cs.span fun c => c != 'e'
  let (whole, fraction) := significand.span fun c => c != '.'
  let digitsOnly (cs : List Char) : Bool := cs.all fun c => (Text.decimalDigit? c).isSome
  digitsOnly whole && digitsOnly (fraction.drop 1) && digitsOnly (exponent.drop 1) &&
    (fraction.isEmpty || !whole.isEmpty) &&
    (exponent.isEmpty || !significand.isEmpty && exponent.length != 1)

end CommandLine

end GuestHost
