/-
Module: Crosswire.Codec.Decimal
Purpose: Decimal numbers as a reader of double-precision numbers sees them. The leading digits that fit
  into 64 bits are the significand, the others only move the point, and the number is the product of
  significand and power of ten, each rounded to double precision first. A number is huge if that
  product is beyond the largest double-precision number.
Imports: Crosswire.Text.Unsigned
Main exports: Decimal, Decimal.ofParts, Decimal.isHuge, Decimal.toInt?, Double.nearest, fitDigits
-/
import Crosswire.Text.Unsigned

namespace Crosswire

namespace Double

/-- The natural number nearest to `number` among those with at most 53 binary digits before trailing
zeros. Halfway between two of them, the even one is nearest. -/
def nearest (number : Nat) : Nat :=
  let unit := Nat.pow 2 (number.log2 - 52)
  let whole := number / unit
  let rest := number % unit
  let up := unit < 2 * rest || (2 * rest == unit && whole % 2 == 1)
  (if up then whole + 1 else whole) * unit

/-- Numbers from here on are too large for double precision: the point halfway between the largest such
number and the next one with the same spacing. -/
def bound : Nat := Nat.pow 2 1024 - Nat.pow 2 970

/-- The largest power of ten below the bound has this exponent. -/
def maxExponent : Nat := 308

end Double

/-- Append digits to a significand as long as it fits into 64 bits. The digits that no longer fit are
returned with it. -/
def fitDigits (significand : Nat) : List Char → Nat × List Char
  | [] => (significand, [])
  | digit :: rest =>
    let next := 10 * significand + digitValue digit
    if next < unsignedBound then fitDigits next rest else (significand, digit :: rest)

/-- A decimal number: `significand` times ten to the power `exponent`. -/
structure Decimal where
  negative : Bool
  significand : Nat
  exponent : Int
  /-- Whether neither point nor exponent was written. -/
  plain : Bool
deriving DecidableEq, Repr

namespace Decimal

/-- The number with these digits before and behind the point, times ten to the power `exponent`. Digits
before the point that do not fit into the significand count as places; behind the point they are
left out. -/
def ofParts (negative : Bool) (whole : List Char) (fraction : Option (List Char)) (exponent : Option Int) :
    Decimal :=
  let (significand, places) := fitDigits 0 whole
  let behind := fraction.getD []
  let (significand, ignored) := fitDigits significand behind
  { negative
    significand
    exponent := exponent.getD 0 + places.length - (behind.length - ignored.length : Nat)
    plain := fraction.isNone && exponent.isNone }

/-- Whether a number is too large for double precision. Small numbers are never too large, however many
digits they were written with. -/
def isHuge (decimal : Decimal) : Bool :=
  if decimal.significand = 0 then false
  else
    match decimal.exponent with
    | .ofNat power =>
      Double.maxExponent < power ||
        Double.bound ≤ Double.nearest decimal.significand * Double.nearest (Nat.pow 10 power)
    | .negSucc _ => false

/-- The integer that a number is written as, if it fits into the significand. A minus before zero makes a
number no integer. -/
def toInt? (decimal : Decimal) : Option Int :=
  if !decimal.plain || decimal.exponent != 0 then none
  else if !decimal.negative then some decimal.significand
  else if decimal.significand = 0 then none
  else some (-decimal.significand)

end Decimal

end Crosswire
