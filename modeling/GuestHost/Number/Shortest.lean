import GuestHost.Number.Binary

/-!
# The shortest decimal of a floating-point number

Of the decimals that read back as a number, `Decimal.shortest` gives the one with the fewest digits
that lies nearest to it.  The decimals with a given number of digits lie on a grid, and if one of
them reads back, so does one of the two next to the number; so it is enough to look at these on ever
finer grids.  Two notations are given for a decimal: `positional`, which never has an exponent, and
`compact`, which has one for very large and very small numbers.
-/

namespace GuestHost

/-- The number `digits` times ten to the `exponent`. -/
structure Decimal where
  digits : Nat
  exponent : Int
  deriving DecidableEq, Repr

namespace Decimal

/-- The decimal without the zeros at the end of its digits. -/
def trim (d : Decimal) : Decimal :=
  if h : d.digits ≠ 0 ∧ d.digits % 10 = 0 then trim ⟨d.digits / 10, d.exponent + 1⟩ else d
termination_by d.digits
decreasing_by have := h.1; omega

/-- The decimal digits of a number. -/
def digitList (n : Nat) : List Char := Nat.toDigits 10 n

/-- A quotient times ten to a power, as a pair of natural numbers. -/
def scale (num den : Nat) (e : Int) : Nat × Nat :=
  if 0 ≤ e then (num * Nat.pow 10 e.toNat, den) else (num, den * Nat.pow 10 (-e).toNat)

/-- The number of digits of a quotient before the point; below one, minus the zeros after it. -/
def magnitude (num den : Nat) : Int :=
  let guess : Int := ((digitList num).length : Int) - (digitList den).length
  let (a, b) := scale num den (-guess)
  if b ≤ a then guess + 1 else guess

/-- The numbers that round to a floating-point number lie between two quotients of one denominator;
`inclusive` says whether the bounds round to it as well. -/
structure Interval where
  low : Nat
  value : Nat
  high : Nat
  den : Nat
  inclusive : Bool

/-- The interval around a number that is not zero. -/
def Interval.around (f : BinaryFormat) (significand : Nat) (exponent : Int) : Interval :=
  let (unit, den) := BinaryFormat.scale 1 1 (exponent - 2)
  let below := if significand = f.unit ∧ exponent ≠ f.minExponent then 1 else 2
  { low := (4 * significand - below) * unit, value := 4 * significand * unit
    high := (4 * significand + 2) * unit, den, inclusive := significand % 2 = 0 }

/-- Whether a decimal lies inside an interval. -/
def Interval.contains (i : Interval) (d : Decimal) : Bool :=
  let (num, den) := scale d.digits 1 d.exponent
  if i.inclusive then i.low * den ≤ num * i.den && num * i.den ≤ i.high * den
  else i.low * den < num * i.den && num * i.den < i.high * den

/-- The decimal with `count` digits nearest to the value of an interval, if one lies inside. -/
def Interval.nearest? (i : Interval) (count : Nat) : Option Decimal :=
  let exponent := magnitude i.value i.den - count
  let (num, den) := scale i.value i.den (-exponent)
  let below : Decimal := ⟨num / den, exponent⟩
  let above : Decimal := ⟨num / den + 1, exponent⟩
  match i.contains below, i.contains above with
  | true, true =>
    let rest := num % den
    if 2 * rest < den ∨ (2 * rest = den ∧ below.digits % 2 = 0) then some below else some above
  | true, false => some below
  | false, true => some above
  | false, false => none

/-- The nearest of the shortest decimals that read back as a number that is not zero. -/
def shortest (f : BinaryFormat) (significand : Nat) (exponent : Int) : Decimal :=
  let i := Interval.around f significand exponent
  (((List.range 17).findSome? fun n => i.nearest? (n + 1)).getD ⟨0, 0⟩).trim

/-- The digits with zeros up to the point, or around it. -/
def positional (d : Decimal) : List Char :=
  let ds := digitList d.digits
  if 0 ≤ d.exponent then ds ++ List.replicate d.exponent.toNat '0'
  else
    let places := (-d.exponent).toNat
    if places < ds.length then
      ds.take (ds.length - places) ++ '.' :: ds.drop (ds.length - places)
    else '0' :: '.' :: List.replicate (places - ds.length) '0' ++ ds

/-- Positional up to sixteen digits before the point and five zeros after it, always with a point;
otherwise one digit, the others after a point, and an exponent. -/
def compact (d : Decimal) : List Char :=
  let ds := digitList d.digits
  let point := (ds.length : Int) + d.exponent
  if 0 ≤ d.exponent ∧ point ≤ 16 then d.positional ++ ['.', '0']
  else if -5 < point ∧ point ≤ 16 then d.positional
  else
    ds.take 1 ++ (if ds.length = 1 then [] else '.' :: ds.drop 1) ++
      'e' :: (toString (point - 1)).toList

/-- The text of a floating-point number without an exponent. -/
def plainText (f : BinaryFormat) (bits : Nat) : String :=
  match f.decode bits with
  | .nan => "NaN"
  | .infinite negative => if negative then "-inf" else "inf"
  | .finite negative significand exponent =>
    let body :=
      if significand = 0 then ['0'] else (shortest f significand exponent).positional
    String.ofList (if negative then '-' :: body else body)

/-- The text of a finite double-precision number, with an exponent if it is very large or small. -/
def compactText (bits : Nat) : String :=
  match BinaryFormat.binary64.decode bits with
  | .finite negative significand exponent =>
    let body :=
      if significand = 0 then ['0', '.', '0']
      else (shortest .binary64 significand exponent).compact
    String.ofList (if negative then '-' :: body else body)
  | _ => ""

end Decimal

end GuestHost
