import ExpenseLedger.Home.Database
import ExpenseLedger.Json.Codec

/-!
# Database files as text

A database file is one JSON object with the recorded versions and the rows of every table. What
may be absent is an array of at most one item.
-/

namespace ExpenseLedger

/-- Something that may be absent, as an array. -/
def optionToJson {α : Type} (write : α → Json) (a : Option α) : Json :=
  .array (a.toList.map write)

/-- Reads something that may be absent. -/
def optionFromJson {α : Type} (read : Json.Reader α) : Json.Reader (Option α) :=
  Json.Reader.refine (Json.Reader.array read) fun
    | [] => some none
    | [a] => some (some a)
    | _ => none

/-- Reads the number of a consumer, which may be as large as an identifier. -/
def consumerFromJson : Json.Reader Nat :=
  Json.Reader.natBelow Uuid.limit

namespace Category

def toJson (category : Category) : Json :=
  .object [("id", .integer category.id), ("user", .integer category.user),
    ("name", .text category.name)]

def fromJson : Json.Reader Category :=
  let fields :=
    .field "id" Json.Reader.int64 none <|
    .field "user" Json.Reader.int64 none <|
    .field "name" Json.Reader.string none .done
  Json.Reader.record fields fun (id, user, name, _) => { id, user, name }

end Category

namespace Expense

def toJson (expense : Expense) : Json :=
  .object [("id", .integer expense.id), ("user", .integer expense.user),
    ("category", .integer expense.category), ("time", .integer expense.time),
    ("amount", .integer expense.amount)]

def fromJson : Json.Reader Expense :=
  let fields :=
    .field "id" Json.Reader.int64 none <|
    .field "user" Json.Reader.int64 none <|
    .field "category" Json.Reader.int64 none <|
    .field "time" Json.Reader.int64 none <|
    .field "amount" Json.Reader.int64 none .done
  Json.Reader.record fields fun (id, user, category, time, amount, _) =>
    { id, user, category, time, amount }

end Expense

namespace Claim

def toJson (claim : Claim) : Json :=
  .object [("consumer", .integer claim.consumer), ("since", .integer claim.since)]

def fromJson : Json.Reader Claim :=
  let fields :=
    .field "consumer" consumerFromJson none <|
    .field "since" Json.Reader.int64 none .done
  Json.Reader.record fields fun (consumer, since, _) => { consumer, since }

end Claim

namespace QueuedMessage

def toJson (queued : QueuedMessage) : Json :=
  .object [("seq", .integer queued.seq), ("id", .text queued.message.id),
    ("key", .text queued.message.key), ("value", .text queued.message.value),
    ("owner", optionToJson (fun owner => .integer owner) queued.owner),
    ("enqueued_at", .integer queued.enqueuedAt),
    ("claim", optionToJson Claim.toJson queued.claim), ("attempts", .integer queued.attempts)]

def fromJson : Json.Reader QueuedMessage :=
  let fields :=
    .field "seq" Json.Reader.int64 none <|
    .field "id" Json.Reader.string none <|
    .field "key" Json.Reader.string none <|
    .field "value" Json.Reader.string none <|
    .field "owner" (optionFromJson consumerFromJson) none <|
    .field "enqueued_at" Json.Reader.int64 none <|
    .field "claim" (optionFromJson Claim.fromJson) none <|
    .field "attempts" (Json.Reader.natBelow 0x8000000000000000) none .done
  Json.Reader.record fields fun (seq, id, key, value, owner, enqueuedAt, claim, attempts, _) =>
    { seq, message := { id, key, value }, owner, enqueuedAt, claim, attempts }

end QueuedMessage

namespace CachedReport

def toJson (row : CachedReport) : Json :=
  .object [("key", .text row.key), ("window_start", .integer row.windowStart),
    ("body", .text row.body), ("expires_at", .integer row.expiresAt)]

def fromJson : Json.Reader CachedReport :=
  let fields :=
    .field "key" Json.Reader.string none <|
    .field "window_start" Json.Reader.int64 none <|
    .field "body" Json.Reader.string none <|
    .field "expires_at" Json.Reader.int64 none .done
  Json.Reader.record fields fun (key, windowStart, body, expiresAt, _) =>
    { key, windowStart, body, expiresAt }

end CachedReport

namespace Store

def toJson (store : Store) : Json :=
  .object [("currencies", .array (store.currencies.map Currency.toJson)),
    ("users", .array (store.users.map User.toJson)),
    ("categories", .array (store.categories.map Category.toJson)),
    ("expenses", .array (store.expenses.map Expense.toJson)),
    ("messages", .array (store.messages.map QueuedMessage.toJson)),
    ("cached_reports", .array (store.cachedReports.map CachedReport.toJson)),
    ("next_category", .integer store.nextCategory), ("next_expense", .integer store.nextExpense),
    ("next_message", .integer store.nextMessage)]

def fromJson : Json.Reader Store :=
  let fields :=
    .field "currencies" (Json.Reader.array Currency.fromJson) none <|
    .field "users" (Json.Reader.array User.fromJson) none <|
    .field "categories" (Json.Reader.array Category.fromJson) none <|
    .field "expenses" (Json.Reader.array Expense.fromJson) none <|
    .field "messages" (Json.Reader.array QueuedMessage.fromJson) none <|
    .field "cached_reports" (Json.Reader.array CachedReport.fromJson) none <|
    .field "next_category" Json.Reader.int64 none <|
    .field "next_expense" Json.Reader.int64 none <|
    .field "next_message" Json.Reader.int64 none .done
  Json.Reader.record fields fun (currencies, users, categories, expenses, messages, cachedReports,
      nextCategory, nextExpense, nextMessage, _) =>
    { currencies, users, categories, expenses, messages, cachedReports, nextCategory, nextExpense
      nextMessage }

end Store

namespace DatabaseFile

def toJson (file : DatabaseFile) : Json :=
  .object [
    ("versions", optionToJson (fun versions => .array (versions.map Json.integer)) file.versions),
    ("tables", optionToJson Store.toJson file.tables)]

def fromJson : Json.Reader DatabaseFile :=
  let fields :=
    .field "versions" (optionFromJson (Json.Reader.array Json.Reader.int64)) none <|
    .field "tables" (optionFromJson Store.fromJson) none .done
  Json.Reader.record fields fun (versions, tables, _) => { versions, tables }

def toText (file : DatabaseFile) : String :=
  file.toJson.toText

/-- The database file of a text. A text that is none has neither versions nor tables. -/
def ofText (text : String) : DatabaseFile :=
  match Json.Reader.whole fromJson text with
  | .ok file => file
  | .error _ => { versions := none, tables := none }

end DatabaseFile
end ExpenseLedger
