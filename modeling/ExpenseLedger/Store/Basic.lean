import ExpenseLedger.Numeric.Binary64

/-!
# Users and currencies

The rows that operations hand out: a user with its limits in minor units of the reference
currency, and a currency with its rate.
-/

namespace ExpenseLedger

/-- A user: the currency it reads and writes amounts in, and its monthly limits. -/
structure User where
  id : Int
  currency : Int
  defaultLimit : Int
  currentLimit : Int
  deriving DecidableEq, Repr, Inhabited

/-- A currency: how many of its units make one of the reference currency. -/
structure Currency where
  id : Int
  code : String
  rate : Binary64
  deriving DecidableEq, Inhabited

end ExpenseLedger
