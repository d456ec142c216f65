import ExpenseLedger.Numeric.Binary64.Arithmetic
import ExpenseLedger.Numeric.Binary64.Reading

/-!
# The double of a JSON number

The digits of a number are gathered into 64 bits for as long as these hold them, and what they make
is then multiplied or divided by a power of ten, in doubles. Both the power and the result are
rounded, so that the double need not be the one nearest to the number as it is written.
-/

namespace ExpenseLedger
namespace Json

/-- The number of digits that follow others, as many as 64 bits hold, and the digits from the first
one on that they do not. -/
def gather : Nat → List Char → Nat × List Char
  | significand, [] => (significand, [])
  | significand, c :: rest =>
    let longer := Nat.ofDigitChars 10 [c] significand
    if 0x10000000000000000 ≤ longer then (significand, c :: rest) else gather longer rest

/-- The double nearest to a power of ten. -/
def powerOfTen (exponent : Nat) : Binary64 :=
  Binary64.ofRatio false (tenTo exponent) 1

/-- The greatest power of ten that is a double. -/
def maxPower : Nat := 308

/-- Divides by the greatest power of ten a number of times, or until nothing is left. -/
def divideByMaxPower : Nat → Binary64 → Binary64
  | 0, x => x
  | count + 1, x =>
    if x.isZero then x else divideByMaxPower count (x.div (powerOfTen maxPower))

/-- A double times a power of ten, if it is not past the largest double. -/
def timesPowerOfTen? (x : Binary64) (exponent : Int) : Option Binary64 :=
  if 0 ≤ exponent then
    if exponent ≤ maxPower then
      let product := x.mul (powerOfTen exponent.toNat)
      if product.isFinite then some product else none
    else
      if x.isZero then some x else none
  else
    let places := (-exponent).toNat
    let count := (places - 1) / maxPower
    some ((divideByMaxPower count x).div (powerOfTen (places - count * maxPower)))

/-- The double of a significand times a power of ten, if there is one. -/
def double? (negative : Bool) (significand : Nat) (exponent : Int) : Option Binary64 :=
  (timesPowerOfTen? (Binary64.ofInt significand) exponent).map fun x =>
    if negative then x.negate else x

/-- The nearest double to the number is one more in its last place. -/
example : double? false 1 (-30) ≠ some (Binary64.ofDecimal false 1 (-30)) ∧
    double? false 11 (-3) = some (Binary64.ofDecimal false 11 (-3)) := by
  decide +kernel

end Json
end ExpenseLedger
