import ExpenseLedger.Ledger.Writing

/-!
# Accounts

What users do with their books besides writing expenses: they come and go, make categories, set
limits and choose the currency in which amounts are shown. Amounts come in and go out in the
display currency. Whatever makes finished reports of a user stale drops them.
-/

namespace ExpenseLedger

/-- The limits of a user in its display currency. -/
structure LimitStatus where
  currency : String
  defaultLimit : Amount
  remaining : Amount
  deriving DecidableEq, Repr

def LimitStatus.toJson (status : LimitStatus) : Json :=
  .object [("currency", .text status.currency), ("default_limit", status.defaultLimit.toJson),
    ("remaining", status.remaining.toJson)]

namespace Books

/-- Makes a user with a limit in reference minor units; false if there is one already. -/
def addUser (books : Books) (user limit : Int) : Outcome (Bool × Books) := do
  let (created, store) ← books.store.addUser user limit
  .ok (created, { books with store })

/-- Erases a user with its categories, expenses and finished reports. -/
def resetUser (books : Books) (user : Int) : Outcome Books := do
  let books ← books.withStore fun store => store.deleteUser user
  .ok (books.invalidate user)

/-- Makes a category; false if the user has one of that name. Blanks around the name do not
count. -/
def addCategory (books : Books) (user : Int) (name : String) : Outcome (Bool × Books) := do
  let (created, store) ← books.store.addCategory user (trim name)
  .ok (created, { books with store })

/-- The expenses of a user since an instant, in reference minor units. -/
def readExpenses (books : Books) (user : Int) (since : Instant) : Outcome (List ExpenseRow) :=
  books.store.expensesSince user since

/-- Sets both limits of a user to an amount in its display currency. -/
def setLimit (books : Books) (user : Int) (amount : Amount) : Outcome Books := do
  if ¬amount.isPositive then
    .error (.invalidAmount (.limitBelowOneUnit amount))
  else
    let row ← books.store.user user
    let base ← books.store.toBase amount.minor row.currency
    if base ≤ 0 then
      .error (.invalidAmount (.limitTooSmall amount))
    else
      books.withStore fun store => store.setLimit user base

/-- Sets the current limit of a user to its default one. -/
def resetLimit (books : Books) (user : Int) : Outcome Books :=
  books.withStore fun store => store.resetLimit user

/-- Sets the current limit of every user to its default one; tells how many users there are. -/
def resetAllLimits (books : Books) : Outcome (Nat × Books) := do
  let (count, store) ← books.store.resetAllLimits
  .ok (count, { books with store })

def limitStatus (books : Books) (user : Int) : Outcome LimitStatus := do
  let row ← books.store.user user
  let currency ← books.store.currency row.currency
  let rate ← books.store.rate row.currency
  let defaultLimit ← Error.ofConversion (Conversion.fromBase row.defaultLimit rate)
  let remaining ← Error.ofConversion (Conversion.fromBase row.currentLimit rate)
  .ok { currency := currency.code, defaultLimit := ⟨defaultLimit⟩, remaining := ⟨remaining⟩ }

def changeCurrency (books : Books) (user : Int) (code : String) : Outcome (Currency × Books) := do
  let currency ← books.store.currencyOfCode code
  let books ← books.withStore fun store => store.setCurrency user currency.id
  .ok (currency, books.invalidate user)

end Books
end ExpenseLedger
