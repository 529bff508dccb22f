import GuestHost.Number.Binary
import GuestHost.Text.Digit

/-!
# Number literals

The words that stand for numbers in the text format.  An integer is decimal or hexadecimal, and may
be given as a signed or as an unsigned number of its width.  A floating-point number is rounded to
the nearest one that its format has, and must not be too large for it.
-/

namespace GuestHost

namespace Wasm

namespace Literal

/-- Splits off a sign; the first part says whether it is a minus. -/
def splitSign : List Char → Bool × List Char
  | '-' :: cs => (true, cs)
  | '+' :: cs => (false, cs)
  | cs => (false, cs)

/-- Reads one or more digits, with single underscores between them. -/
def digits? (digit? : Char → Option Nat) : List Char → Option (List Nat)
  | [] => none
  | [c] => (digit? c).map ([·])
  | c :: '_' :: cs => do some ((← digit? c) :: (← digits? digit? cs))
  | c :: cs => do some ((← digit? c) :: (← digits? digit? cs))

/-- A number system: its base, its digits, and what follows a significand. -/
structure Radix where
  base : Nat
  digit? : Char → Option Nat
  /-- Begins an exponent. -/
  isMark : Char → Bool
  /-- What an exponent is an exponent of. -/
  scale : Nat
  /-- The power of `scale` that `base` is. -/
  power : Nat

/-- Decimal numbers. -/
def Radix.decimal : Radix := ⟨10, Text.decimalDigit?, fun c => c = 'e' || c = 'E', 10, 1⟩

/-- Hexadecimal numbers, whose exponents count powers of two. -/
def Radix.hex : Radix := ⟨16, Text.hexDigit?, fun c => c = 'p' || c = 'P', 2, 4⟩

/-- Splits off the mark of a hexadecimal number. -/
def splitRadix : List Char → Radix × List Char
  | '0' :: 'x' :: cs => (.hex, cs)
  | cs => (.decimal, cs)

/-- Reads an integer without a sign. -/
def natural? (cs : List Char) : Option Nat :=
  let (radix, cs) := splitRadix cs
  (digits? radix.digit? cs).map (Text.ofDigits radix.base)

/-- Reads an integer of the given width, signed or unsigned, and gives it as an unsigned one. -/
def integer? (width : Nat) (text : String) : Option Nat :=
  let (isNegative, cs) := splitSign text.toList
  (natural? cs).bind fun n =>
    if isNegative then
      if n ≤ 1 <<< (width - 1) then some (((1 <<< width) - n) % (1 <<< width)) else none
    else if n < 1 <<< width then some n
    else none

/-- Reads an exponent, which may be missing altogether. -/
def exponent? : List Char → Option Int
  | [] => some 0
  | _ :: cs =>
    let (isNegative, cs) := splitSign cs
    (digits? Text.decimalDigit? cs).map fun ds =>
      let n : Int := Text.ofDigits 10 ds
      if isNegative then -n else n

/-- Reads the digits after a point; the point and the digits may be missing. -/
def fraction? (radix : Radix) : List Char → Option (List Nat)
  | [] | ['.'] => some []
  | _ :: cs => digits? radix.digit? cs

/-- Beyond this many powers every number is too large, or so small that it rounds to zero. -/
def exponentLimit : Int := 5000

/-- The bits of the number nearest to `n` times a power of `scale`, unless that is too large. -/
def rounded? (f : BinaryFormat) (n scale : Nat) (e : Int) : Option Nat :=
  if n = 0 then some 0
  else if exponentLimit < e then none
  else if e + Nat.log2 n + 1 < -exponentLimit then some 0
  else
    let bits :=
      if 0 ≤ e then f.round (n * scale.pow e.toNat) 1 else f.round n (scale.pow (-e).toNat)
    if bits < f.infinityBits then some bits else none

/-- Reads a finite number without a sign. -/
def finite? (f : BinaryFormat) (cs : List Char) : Option Nat := do
  let (radix, cs) := splitRadix cs
  let (significand, exponent) := cs.span fun c => !radix.isMark c
  let (whole, fraction) := significand.span fun c => c ≠ '.'
  let whole ← digits? radix.digit? whole
  let fraction ← fraction? radix fraction
  let exponent ← exponent? exponent
  rounded? f (Text.ofDigits radix.base (whole ++ fraction)) radix.scale
    (exponent - radix.power * fraction.length)

/-- Reads a number without a sign. -/
def magnitude? (f : BinaryFormat) (cs : List Char) : Option Nat :=
  match String.ofList cs with
  | "inf" => some f.infinityBits
  | "nan" => some (f.infinityBits + f.unit / 2)
  | _ =>
    match cs with
    | 'n' :: 'a' :: 'n' :: ':' :: '0' :: 'x' :: cs =>
      (digits? Text.hexDigit? cs).bind fun ds =>
        let payload := Text.ofDigits 16 ds
        if 0 < payload ∧ payload < f.unit then some (f.infinityBits + payload) else none
    | _ => finite? f cs

/-- Reads a floating-point number and gives its bits. -/
def float? (f : BinaryFormat) (text : String) : Option Nat :=
  let (isNegative, cs) := splitSign text.toList
  (magnitude? f cs).map fun bits => if isNegative then f.signBit + bits else bits

end Literal

end Wasm

end GuestHost
