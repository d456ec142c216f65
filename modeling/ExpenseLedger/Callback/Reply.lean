import ExpenseLedger.Report.Expense
import ExpenseLedger.Uuid

/-!
# Replies

A worker answers a request by pushing the expenses it has read back to whoever asked, and is
told whether anybody was still waiting for them.
-/

namespace ExpenseLedger

/-- The expenses read for one request. -/
structure Reply where
  id : Uuid
  user : Int
  expenses : List ExpenseRow
  deriving DecidableEq

/-- How a reply was taken. -/
inductive Ack where
  | delivered
  | noWaiter
  deriving DecidableEq, Repr

namespace Ack

def code : Ack → Int
  | .delivered => 1
  | .noWaiter => 2

def ofCode? : Int → Option Ack
  | 1 => some .delivered
  | 2 => some .noWaiter
  | _ => none

def unknownCode (code : Int) : String :=
  "unknown response code " ++ integerText code

end Ack
end ExpenseLedger
