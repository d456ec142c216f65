import ExpenseLedger.Error
import ExpenseLedger.Report.Basic
import ExpenseLedger.Report.Expense

/-!
# Aggregation

Expenses are summed by the name of their category in minor units of the reference currency, and
each sum is converted once. A sum that no signed 64-bit integer holds, on the way or at the end,
is refused.
-/

namespace ExpenseLedger
namespace Report

/-- The report with one more expense. -/
def addRow (totals : Report) (row : ExpenseRow) : Outcome Report :=
  let total := (totals.get? row.categoryName).getD 0 + row.amount
  if FitsInt64 total then .ok (totals.insert row.categoryName total)
  else .error (.conversionFailure (.categoryTotal row.categoryName))

/-- The sums of expenses by category. -/
def totals (rows : List ExpenseRow) : Outcome Report :=
  rows.foldlM addRow empty

def convertEntry (rate : Rate) (entry : String × Int) : Outcome (String × Int) := do
  let total ← Error.ofConversion (Conversion.fromBase entry.2 rate)
  .ok (entry.1, total)

/-- The report of expenses in a display currency. -/
def aggregate (rows : List ExpenseRow) (rate : Rate) : Outcome Report := do
  let sums ← totals rows
  let entries ← sums.entries.mapM (convertEntry rate)
  .ok (ofList entries)

end Report
end ExpenseLedger
