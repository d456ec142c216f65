import ExpenseLedger.Numeric.Power
import ExpenseLedger.Numeric.Rounding

/-!
# Double-precision numbers

The values of the 64-bit binary format, as values: not a number, two infinities, and the finite
ones `± significand · 2 ^ exponent` in the one form that each of them has. Two zeros differ by
their sign. `Binary64.ofRatio` is correct rounding of an exact fraction.
-/

namespace ExpenseLedger

/-- The least significand of 53 bits. -/
def Binary64.fullSignificand : Nat := 0x10000000000000

/-- The significand and exponent of a finite double: at most 53 bits, and exactly 53 unless the
exponent is the least one. -/
def Binary64.Canonical (significand : Nat) (exponent : Int) : Prop :=
  significand < 2 * fullSignificand ∧ -1074 ≤ exponent ∧ exponent ≤ 971 ∧
    (fullSignificand ≤ significand ∨ exponent = -1074)

instance (significand : Nat) (exponent : Int) :
    Decidable (Binary64.Canonical significand exponent) :=
  inferInstanceAs (Decidable (_ ∧ _ ∧ _ ∧ _))

inductive Binary64 where
  | nan
  | infinite (negative : Bool)
  | finite (negative : Bool) (significand : Nat) (exponent : Int)
      (canonical : Binary64.Canonical significand exponent)
  deriving DecidableEq

namespace Binary64

def zero (negative : Bool) : Binary64 :=
  .finite negative 0 (-1074) (by decide)

def one : Binary64 :=
  .finite false fullSignificand (-52) (by decide)

instance : Inhabited Binary64 := ⟨zero false⟩

/-- Neither infinite nor not a number. -/
def isFinite : Binary64 → Bool
  | .finite .. => true
  | _ => false

def isPositive : Binary64 → Bool
  | .finite negative significand _ _ => !negative && significand != 0
  | .infinite negative => !negative
  | .nan => false

/-- The number with these parts; parts that no finite number has stand for a magnitude past the
largest one. -/
def ofParts (negative : Bool) (significand : Nat) (exponent : Int) : Binary64 :=
  if h : Canonical significand exponent then
    .finite negative significand exponent h
  else
    .infinite negative

/-- The double nearest to `num / den`, a tie going to the even significand. `den` is positive. -/
def ofRatio (negative : Bool) (num den : Nat) : Binary64 :=
  if num = 0 then
    zero negative
  else
    -- `num / den` lies between `2 ^ (low + 52)` and `2 ^ (low + 54)`.
    let low : Int := (num.log2 : Int) - den.log2 - 53
    let least : Int := -1074
    let scaled (exponent : Int) : Nat × Nat :=
      (num * twoTo (-exponent).toNat, den * twoTo exponent.toNat)
    let start := max low least
    let (num', den') := scaled start
    let exponent := if num' / den' < 2 * fullSignificand then start else start + 1
    let (num', den') := scaled exponent
    let significand := roundHalfEven num' den'
    if significand = 2 * fullSignificand then
      ofParts negative fullSignificand (exponent + 1)
    else
      ofParts negative significand exponent

def ofInt (n : Int) : Binary64 :=
  ofRatio (n < 0) n.natAbs 1

/-- The double nearest to `± digits · 10 ^ exponent`. Magnitudes that are far outside the range
are settled by the length of the digits alone. -/
def ofDecimal (negative : Bool) (digits : Nat) (exponent : Int) : Binary64 :=
  if digits = 0 ∨ exponent < -(400 + (digits.log2 : Int)) then
    zero negative
  else if 400 < exponent then
    .infinite negative
  else
    ofRatio negative (digits * tenTo exponent.toNat) (tenTo (-exponent).toNat)

end Binary64
end ExpenseLedger
