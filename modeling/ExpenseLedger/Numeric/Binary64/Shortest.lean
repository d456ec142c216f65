import ExpenseLedger.Numeric.Binary64
import ExpenseLedger.Numeric.PlainDecimal

/-!
# The shortest decimal of a double

A finite double is written with the fewest decimal digits that read back as the same double,
and with the nearest of those. All decimals strictly inside its rounding interval read back;
the ends of the interval do too when the significand is even.
-/

namespace ExpenseLedger
namespace Binary64

/-- The rounding interval of a positive double in units of a quarter of its last place: the
lower end, the double and the upper end. Below a power of two the next double is only half as
far away. -/
def interval (significand : Nat) (exponent : Int) : Nat × Nat × Nat :=
  let below := if significand = fullSignificand ∧ exponent ≠ -1074 then 1 else 2
  (4 * significand - below, 4 * significand, 4 * significand + 2)

/-- A multiple of `10 ^ power` that reads back as the double, if there is one: the nearest, and
of two equally near ones the larger. -/
def onGrid? (significand : Nat) (exponent power : Int) : Option Nat :=
  let (low, value, high) := interval significand exponent
  -- Both sides are scaled to whole numbers: `place` units make one quarter of the last place,
  -- `step` units make `10 ^ power`.
  let place := twoTo (exponent - 2).toNat * tenTo (-power).toNat
  let step := tenTo power.toNat * twoTo (2 - exponent).toNat
  let readsBack (count : Nat) : Bool :=
    if significand % 2 = 0 then
      low * place ≤ count * step && count * step ≤ high * place
    else
      low * place < count * step && count * step < high * place
  let under := value * place / step
  let gap := value * place % step
  if readsBack under && (!readsBack (under + 1) || 2 * gap < step) then some under
  else if readsBack (under + 1) then some (under + 1)
  else none

/-- The first grid that holds a decimal reading back as the double, from `power` downwards. -/
def firstGrid (significand : Nat) (exponent : Int) : Nat → Int → Nat × Int
  | 0, power => (0, power)
  | fuel + 1, power =>
    match onGrid? significand exponent power with
    | some digits => (digits, power)
    | none => firstGrid significand exponent fuel (power - 1)

/-- The digits and the power of ten of the shortest decimal of a positive double. Seventeen
digits always suffice, and the first grid tried has a step above the double. -/
def shortest (significand : Nat) (exponent : Int) : Nat × Int :=
  let bits : Int := exponent + significand.log2 + 1
  firstGrid significand exponent 22 (bits * 30103 / 100000 + 2)

/-- The shortest decimal, written without an exponent and without a fraction of zero. -/
def toText : Binary64 → String
  | .nan => "NaN"
  | .infinite negative => if negative then "-inf" else "inf"
  | .finite negative significand exponent _ =>
    if significand = 0 then
      if negative then "-0" else "0"
    else
      let (digits, power) := shortest significand exponent
      String.ofList (plainDecimal negative (digits * tenTo power.toNat) (-power).toNat)

instance : ToString Binary64 := ⟨toText⟩

end Binary64
end ExpenseLedger
