import ExpenseLedger.Calendar.Period
import ExpenseLedger.Callback.Reply
import ExpenseLedger.Json.Record
import ExpenseLedger.Json.Value
import ExpenseLedger.Money.Amount
import ExpenseLedger.Report.Basic
import ExpenseLedger.Store.Basic

/-!
# The library's values as JSON

For each type that crosses a process boundary, how it is written and how it is read back.
-/

namespace ExpenseLedger

namespace Amount

/-- An amount is written as its canonical text. -/
def toJson (amount : Amount) : Json :=
  .text amount.toText

/-- An amount is read from any text that somebody could have written. -/
def fromJson : Json.Reader Amount :=
  Json.Reader.refine Json.Reader.string fun text => (parse text).toOption

end Amount

namespace Period

/-- A period is written as its name. -/
def toJson (period : Period) : Json :=
  .text period.name

def fromJson : Json.Reader Period :=
  Json.Reader.choice ofName?

end Period

namespace Uuid

/-- An identifier is written as its canonical text. -/
def toJson (id : Uuid) : Json :=
  .text id.toText

/-- An identifier is read in any of its spellings. -/
def fromJson : Json.Reader Uuid :=
  Json.Reader.refine Json.Reader.string ofText?

end Uuid

namespace Ack

/-- An acknowledgement is written as its number. -/
def toJson (ack : Ack) : Json :=
  .integer ack.code

/-- An acknowledgement is read from its number, which has to fit 32 bits. -/
def fromJson : Json.Reader Ack :=
  Json.Reader.refine Json.Reader.int32 ofCode?

def toResponse (ack : Ack) : Json :=
  .object [("response_code", ack.toJson)]

def fromResponse : Json.Reader Ack :=
  Json.Reader.record (.field "response_code" fromJson none .done) fun (ack, _) => ack

end Ack

namespace Report

/-- A report is written as an object, by ascending names. -/
def toJson (report : Report) : Json :=
  .object (report.entries.map fun (name, total) => (name, .integer total))

def fromJson : Json.Reader Report :=
  Json.Reader.map Json.Reader.int64 empty insert

end Report

namespace ExpenseRow

def toJson (row : ExpenseRow) : Json :=
  .object [("category_id", .integer row.categoryId), ("category_name", .text row.categoryName),
    ("ts", .integer row.time), ("amount", .integer row.amount)]

def fromJson : Json.Reader ExpenseRow :=
  let fields :=
    .field "category_id" Json.Reader.int64 none <|
    .field "category_name" Json.Reader.string none <|
    .field "ts" Json.Reader.int64 none <|
    .field "amount" Json.Reader.int64 none .done
  Json.Reader.record fields fun (categoryId, categoryName, time, amount, _) =>
    { categoryId, categoryName, time, amount }

end ExpenseRow

namespace Reply

def toJson (reply : Reply) : Json :=
  .object [("correlation_id", reply.id.toJson), ("user_id", .integer reply.user),
    ("expenses", .array (reply.expenses.map ExpenseRow.toJson))]

def fromJson : Json.Reader Reply :=
  let fields :=
    .field "correlation_id" Uuid.fromJson none <|
    .field "user_id" Json.Reader.int64 none <|
    .field "expenses" (Json.Reader.array ExpenseRow.fromJson) none .done
  Json.Reader.record fields fun (id, user, expenses, _) => { id, user, expenses }

end Reply

namespace User

def toJson (user : User) : Json :=
  .object [("id", .integer user.id), ("currency_id", .integer user.currency),
    ("default_month_limit", .integer user.defaultLimit),
    ("current_month_limit", .integer user.currentLimit)]

def fromJson : Json.Reader User :=
  let fields :=
    .field "id" Json.Reader.int64 none <|
    .field "currency_id" Json.Reader.int64 none <|
    .field "default_month_limit" Json.Reader.int64 none <|
    .field "current_month_limit" Json.Reader.int64 none .done
  Json.Reader.record fields fun (id, currency, defaultLimit, currentLimit, _) =>
    { id, currency, defaultLimit, currentLimit }

end User

namespace Currency

def toJson (currency : Currency) : Json :=
  .object [("id", .integer currency.id), ("code", .text currency.code),
    ("rate", .number currency.rate)]

def fromJson : Json.Reader Currency :=
  let fields :=
    .field "id" Json.Reader.int64 none <|
    .field "code" Json.Reader.string none <|
    .field "rate" Json.Reader.double none .done
  Json.Reader.record fields fun (id, code, rate, _) => { id, code, rate }

end Currency

end ExpenseLedger
