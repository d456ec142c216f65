import ExpenseLedger.Money.Rate

/-!
# Conversion between currencies

Amounts are stored in minor units of the reference currency and shown in those of a display
currency. Either way a conversion is one decimal operation, truncated toward zero; a result that
no signed 64-bit integer holds is refused.
-/

namespace ExpenseLedger
namespace Conversion

/-- A conversion whose result is out of range. -/
structure Overflow where
  amount : Int
  rate : Rate
  deriving DecidableEq

def Overflow.message (e : Overflow) : String :=
  integerText e.amount ++ " at rate " ++ e.rate.toText ++ " is out of range"

/-- The whole part of a result, if a signed 64-bit integer holds it. -/
def settle (amount : Int) (rate : Rate) (result : Option Decimal) : Except Overflow Int :=
  match result with
  | none => .error { amount, rate }
  | some decimal =>
    if FitsInt64 decimal.trunc then .ok decimal.trunc else .error { amount, rate }

/-- Display-currency minor units as reference minor units. -/
def toBase (amount : Int) (rate : Rate) : Except Overflow Int :=
  settle amount rate do
    let decimal ← Decimal.ofInt? amount
    decimal.div? rate.value

/-- Reference minor units as display-currency minor units. -/
def fromBase (amount : Int) (rate : Rate) : Except Overflow Int :=
  settle amount rate do
    let decimal ← Decimal.ofInt? amount
    decimal.mul? rate.value

end Conversion
end ExpenseLedger
