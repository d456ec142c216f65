import ExpenseLedger.Numeric.Binary64.Shortest
import ExpenseLedger.Numeric.Decimal.Binary

/-!
# Exchange rates

A rate counts units of a display currency per unit of the reference currency. Rates are stored
as doubles; a usable rate is a double whose decimal exists and is greater than zero.
-/

namespace ExpenseLedger

/-- A usable exchange rate. -/
structure Rate where
  value : Decimal
  positive : value.negative = false ∧ 0 < value.mantissa := by decide
  deriving DecidableEq

namespace Rate

/-- The rate of the reference currency itself. -/
def one : Rate :=
  { value := Decimal.whole 1 }

/-- Why a stored number is no usable rate. -/
inductive Fault where
  | notRepresentable (raw : Binary64)
  | notPositive (raw : Binary64)
  deriving DecidableEq

def Fault.message : Fault → String
  | .notRepresentable raw => "rate " ++ raw.toText ++ " is not representable"
  | .notPositive raw => "rate " ++ raw.toText ++ " must be greater than zero"

/-- The rate that a stored number stands for. -/
def ofBinary64 (raw : Binary64) : Except Fault Rate :=
  match Decimal.ofBinary64? raw with
  | none => .error (.notRepresentable raw)
  | some value =>
    if h : value.negative = false ∧ 0 < value.mantissa then
      .ok { value, positive := h }
    else
      .error (.notPositive raw)

/-- The rate written as a plain decimal. -/
def toText (rate : Rate) : String :=
  rate.value.toText

instance : ToString Rate := ⟨toText⟩

end Rate
end ExpenseLedger
