/-!
# Expense rows

An expense as it is read back for a report: the category under its id and name, the time in
seconds, and the amount in minor units of the reference currency.
-/

namespace ExpenseLedger

/-- A stored expense with the name of its category. -/
structure ExpenseRow where
  categoryId : Int
  categoryName : String
  time : Int
  amount : Int
  deriving DecidableEq, Repr, Inhabited

end ExpenseLedger
