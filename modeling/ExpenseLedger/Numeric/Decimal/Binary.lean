import ExpenseLedger.Numeric.Binary64
import ExpenseLedger.Numeric.Decimal

/-!
# Doubles as decimals

A double `m · 2 ^ e` is turned into `m' · 10 ^ e'` by trading powers of two for powers of ten,
then cut to a scale of 28 and to about sixteen digits. The steps lose digits in a fixed order,
so the result is close to the double but not always the nearest decimal.
-/

namespace ExpenseLedger
namespace Decimal

/-- A number `mantissa · 10 ^ exponent` on its way to a decimal. -/
structure Scaled where
  mantissa : Nat
  exponent : Int

namespace Scaled

/-- Takes out `count` halvings. Each is paid for by a factor of five and a power of ten, or,
when the mantissa has no room left, by halving the mantissa itself. -/
def halve : Nat → Scaled → Scaled
  | 0, x => x
  | count + 1, x =>
    if x.mantissa % 2 = 0 then
      halve count { mantissa := x.mantissa / 2, exponent := x.exponent + 1 }
    else if 5 * x.mantissa < mantissaLimit then
      halve count { x with mantissa := 5 * x.mantissa }
    else
      halve count { mantissa := x.mantissa / 2, exponent := x.exponent + 1 }

/-- Puts in `count` doublings. While the mantissa has room it is doubled; after that a power
of ten is kept and a factor of five given up, as long as there are powers enough. -/
def double? : Nat → Scaled → Option Scaled
  | 0, x => some x
  | count + 1, x =>
    if 2 * x.mantissa < mantissaLimit then
      double? count { mantissa := 2 * x.mantissa, exponent := x.exponent - 1 }
    else if 2 * x.exponent > (count + 1 : Nat) then
      none
    else
      double? count { x with mantissa := x.mantissa / 5 }

/-- Multiplies `count` powers of ten into the mantissa. -/
def absorb? : Nat → Nat → Option Nat
  | 0, mantissa => some mantissa
  | count + 1, mantissa =>
    if 10 * mantissa < mantissaLimit then absorb? count (10 * mantissa) else none

/-- The number without its last digit, rounded by that digit. -/
def dropDigit (mantissa : Nat) : Nat :=
  if 5 ≤ mantissa % 10 then mantissa / 10 + 1 else mantissa / 10

/-- Drops up to `count` digits, rounding by each; a mantissa that is down to its last digit is
lost whole. -/
def coarsen : Nat → Nat → Nat
  | 0, mantissa => mantissa
  | count + 1, mantissa =>
    if mantissa / 10 = 0 then 0 else coarsen count (dropDigit mantissa)

/-- Drops digits after the point while the mantissa has more than fifty-two bits. -/
def shorten (mantissa : Nat) : Nat → Nat × Nat
  | 0 => (mantissa, 0)
  | scale + 1 =>
    if Binary64.fullSignificand ≤ mantissa then shorten (dropDigit mantissa) scale
    else (mantissa, scale + 1)

/-- Drops zeros at the end of the fraction. -/
def dropZeros (mantissa : Nat) : Nat → Nat × Nat
  | 0 => (mantissa, 0)
  | scale + 1 =>
    if mantissa % 10 = 0 then dropZeros (mantissa / 10) scale else (mantissa, scale + 1)

/-- The decimal of a scaled number: no positive power of ten, at most 28 places, no needless
digits. -/
def toDecimal? (negative : Bool) (x : Scaled) : Option Decimal := do
  let mantissa ← absorb? x.exponent.toNat x.mantissa
  let places := (-x.exponent).toNat
  let coarse := coarsen (places - maxScale) mantissa
  let scale := if coarse = 0 && maxScale < places then 0 else min maxScale places
  let (mantissa, scale) := shorten coarse scale
  let (mantissa, scale) := dropZeros mantissa scale
  ofParts? negative mantissa scale

end Scaled

/-- The decimal that stands for a double; infinities, values too large and what is not a number
have none. -/
def ofBinary64? : Binary64 → Option Decimal
  | .nan => none
  | .infinite _ => none
  | .finite negative significand exponent _ =>
    if significand = 0 then
      ofParts? negative 0 0
    else do
      let start : Scaled := { mantissa := significand, exponent }
      let scaled ← Scaled.double? exponent.toNat (Scaled.halve (-exponent).toNat start)
      scaled.toDecimal? negative

end Decimal
end ExpenseLedger
