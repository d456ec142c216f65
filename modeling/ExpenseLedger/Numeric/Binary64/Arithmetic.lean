import ExpenseLedger.Numeric.Binary64

/-!
# Products and quotients of doubles

An operation on doubles yields the double nearest to the exact result. What has no exact result,
as the product of zero and an infinite number, is not a number.
-/

namespace ExpenseLedger
namespace Binary64

/-- Neither positive nor negative. -/
def isZero : Binary64 → Bool
  | .finite _ significand _ _ => significand == 0
  | _ => false

/-- The number with the other sign. -/
def negate : Binary64 → Binary64
  | .nan => .nan
  | .infinite negative => .infinite !negative
  | .finite negative significand exponent canonical =>
    .finite (!negative) significand exponent canonical

/-- The double nearest to `± num / den · 2 ^ exponent`. `den` is positive. -/
def ofScaledRatio (negative : Bool) (num den : Nat) (exponent : Int) : Binary64 :=
  ofRatio negative (num * twoTo exponent.toNat) (den * twoTo (-exponent).toNat)

def mul : Binary64 → Binary64 → Binary64
  | .nan, _ | _, .nan => .nan
  | .infinite negative, .infinite negative' => .infinite (negative != negative')
  | .infinite negative, .finite negative' significand _ _
  | .finite negative significand _ _, .infinite negative' =>
    if significand = 0 then .nan else .infinite (negative != negative')
  | .finite negative significand exponent _, .finite negative' significand' exponent' _ =>
    ofScaledRatio (negative != negative') (significand * significand') 1 (exponent + exponent')

def div : Binary64 → Binary64 → Binary64
  | .nan, _ | _, .nan | .infinite _, .infinite _ => .nan
  | .infinite negative, .finite negative' _ _ _ => .infinite (negative != negative')
  | .finite negative _ _ _, .infinite negative' => zero (negative != negative')
  | .finite negative significand exponent _, .finite negative' significand' exponent' _ =>
    if significand' = 0 then
      if significand = 0 then .nan else .infinite (negative != negative')
    else
      ofScaledRatio (negative != negative') significand significand' (exponent - exponent')

end Binary64
end ExpenseLedger
