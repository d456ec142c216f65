import ExpenseLedger.Calendar.Timestamp
import ExpenseLedger.Commands.Output
import ExpenseLedger.Report.Call
import ExpenseLedger.Worker

/-!
# The report command

A report call runs, and what it yields is printed with the code of the currency that the user
has by then. A local report brings its own worker, which answers nobody else; any other waits for
a worker that runs elsewhere.
-/

namespace ExpenseLedger

/-- A report as it is printed. -/
structure SpendingReport where
  user : Int
  period : Period
  since : Instant
  currency : String
  categories : List (String × Amount)
  total : Amount
  deriving DecidableEq

namespace SpendingReport

/-- The sum of totals, every partial sum of which has to fit 64 bits. -/
def sum (report : Report) : Outcome Int :=
  report.entries.foldlM (fun total entry =>
    let total := total + entry.2
    if FitsInt64 total then .ok total else .error (.conversionFailure .reportTotal)) 0

/-- The report of a user with the currency that the user has now. -/
def ofReport (store : Store) (user : Int) (period : Period) (since : Instant)
    (report : Report) : Outcome SpendingReport := do
  let row ← store.user user
  let currency ← store.currency row.currency
  let total ← sum report
  .ok { user, period, since, currency := currency.code
        categories := report.entries.map fun (name, amount) => (name, ⟨amount⟩)
        total := ⟨total⟩ }

def line (report : SpendingReport) (name : String) (amount : Amount) : String :=
  "\n" ++ name ++ ": " ++ amount.toText ++ " " ++ report.currency

def message (report : SpendingReport) : String :=
  let lines := report.categories.map fun (name, amount) => report.line name amount
  "Expenses since " ++ report.since.date.toText ++ " (" ++ report.period.name ++ ")" ++
    (if lines.isEmpty then ":\nnothing recorded" else String.join lines) ++
    report.line "total" report.total

def toJson (report : SpendingReport) : Json :=
  .object [("user_id", .integer report.user), ("period", report.period.toJson),
    ("since", .text (Timestamp.toText report.since)), ("currency", .text report.currency),
    ("categories", .object (report.categories.map fun (name, amount) => (name, amount.toJson))),
    ("total", report.total.toJson)]

def toOutput (report : SpendingReport) : Output :=
  { message := report.message, value := some report.toJson }

end SpendingReport

/-- A report command under way: its call, and the desk of its process. -/
structure ReportCommand where
  period : Period
  settings : ReportSettings
  call : ReportCall
  desk : Desk

namespace ReportCommand

/-- The tables as the process of the command sees them. -/
def store (command : ReportCommand) : Store :=
  command.desk.books.store

def withStore (command : ReportCommand) (store : Store) : ReportCommand :=
  { command with desk := { command.desk with books := { command.desk.books with store } } }

def run (now : Int) (command : ReportCommand) : ReportCommand :=
  let (call, desk) := command.call.run command.settings now command.desk
  { command with call, desk }

/-- Has a worker in the same process answer the requests of a queue. -/
def answerFrom (queue : QueueHandle) (now : Int) (command : ReportCommand) : ReportCommand :=
  let (_, desk) := Worker.workOff queue Callback.toDesk now command.desk
  { command with desk }

def interrupt (command : ReportCommand) : ReportCommand :=
  let (call, desk) := command.call.cancel command.desk
  { command with call, desk }

/-- What the command prints, once its call has ended. -/
def output (command : ReportCommand) : Outcome Output := do
  match command.call.result? with
  | none => .error .cancelled
  | some result =>
    let report ← result
    let call := command.call
    let spending ← SpendingReport.ofReport command.store call.user command.period call.since report
    .ok spending.toOutput

end ReportCommand
end ExpenseLedger
