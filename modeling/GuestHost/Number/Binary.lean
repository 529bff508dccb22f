/-!
# Binary floating-point numbers

A `BinaryFormat` says how many bits the significand of a floating-point number has and which
exponents it may carry.  `decode` splits the bits of a number, and `round` gives the bits of the
number nearest to a quotient, an exact half going to the even neighbour.
-/

namespace GuestHost

/-- A floating-point format with two as its base. -/
structure BinaryFormat where
  /-- The bits of a significand, its leading one included. -/
  precision : Nat
  /-- The exponent of the smallest numbers, those whose significand is counted in units of it. -/
  minExponent : Int
  /-- The number of exponents a finite number may have. -/
  exponents : Nat
  deriving DecidableEq, Repr

namespace BinaryFormat

/-- Single precision. -/
def binary32 : BinaryFormat := ⟨24, -149, 254⟩

/-- Double precision. -/
def binary64 : BinaryFormat := ⟨53, -1074, 2046⟩

/-- What the bits of a number say: a number is its significand times two to its exponent. -/
inductive Decoded where
  | nan
  | infinite (negative : Bool)
  | finite (negative : Bool) (significand : Nat) (exponent : Int)
  deriving DecidableEq, Repr

variable (f : BinaryFormat)

/-- The weight of the lowest bit of the exponent field. -/
def unit : Nat := 1 <<< (f.precision - 1)

/-- The bits of infinity; those of a finite number are below, those of no number above. -/
def infinityBits : Nat := (f.exponents + 1) * f.unit

/-- The sign bit. -/
def signBit : Nat := (f.exponents + 2) * f.unit

/-- Splits the bits of a number. -/
def decode (bits : Nat) : Decoded :=
  let negative := f.signBit ≤ bits
  let rest := bits % f.signBit
  if f.infinityBits < rest then .nan
  else if f.infinityBits = rest then .infinite negative
  else
    let field := rest / f.unit
    if field = 0 then .finite negative rest f.minExponent
    else .finite negative (rest % f.unit + f.unit) (f.minExponent + (field - 1 : Nat))

/-- A quotient of powers: `num * 2 ^ e / den` as a pair of natural numbers. -/
def scale (num den : Nat) (e : Int) : Nat × Nat :=
  if 0 ≤ e then (num <<< e.toNat, den) else (num, den <<< (-e).toNat)

/-- The integer nearest to a quotient, an exact half going to the even neighbour. -/
def roundDiv (num den : Nat) : Nat :=
  let q := num / den
  let r := num % den
  if den < 2 * r ∨ (2 * r = den ∧ q % 2 = 1) then q + 1 else q

/-- The least exponent whose significand keeps all the bits of a quotient that there is room for. -/
def exponentFor (num den : Nat) : Int :=
  let low : Int := (Nat.log2 num : Int) - Nat.log2 den - f.precision
  let (a, b) := scale num den (-low)
  max f.minExponent (if a / b < 1 <<< f.precision then low else low + 1)

/-- The bits of the non-negative number nearest to a quotient; infinity when it is too large. -/
def round (num den : Nat) : Nat :=
  if num = 0 then 0
  else
    let e := f.exponentFor num den
    let (a, b) := scale num den (-e)
    min f.infinityBits ((e - f.minExponent).toNat * f.unit + roundDiv a b)

/-- The exact value of a finite non-negative number as a quotient. -/
def quotient (significand : Nat) (exponent : Int) : Nat × Nat := scale significand 1 exponent

/-- The quotient that the bits of a finite number stand for, without its sign. -/
def quotientOfBits (bits : Nat) : Nat × Nat :=
  match f.decode bits with
  | .finite _ significand exponent => quotient significand exponent
  | _ => (0, 1)

/-- The rounded product of two finite non-negative numbers. -/
def mul (a b : Nat) : Nat :=
  let (n₁, d₁) := f.quotientOfBits a
  let (n₂, d₂) := f.quotientOfBits b
  f.round (n₁ * n₂) (d₁ * d₂)

/-- The rounded quotient of two finite non-negative numbers, the second of which is not zero. -/
def div (a b : Nat) : Nat :=
  let (n₁, d₁) := f.quotientOfBits a
  let (n₂, d₂) := f.quotientOfBits b
  f.round (n₁ * d₂) (d₁ * n₂)

end BinaryFormat

end GuestHost
