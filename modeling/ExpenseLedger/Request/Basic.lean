import ExpenseLedger.Calendar.Instant
import ExpenseLedger.Uuid

/-!
# Report requests

A request asks for all expenses of a user since the start of a window. Its id ties the answer to
it.
-/

namespace ExpenseLedger

/-- A request for the expenses of a user since an instant. -/
structure ReportRequest where
  id : Uuid
  user : Int
  since : Instant
  deriving DecidableEq

end ExpenseLedger
