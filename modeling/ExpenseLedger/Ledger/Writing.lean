import ExpenseLedger.Books
import ExpenseLedger.Calendar.Period
import ExpenseLedger.Money.Amount
import ExpenseLedger.Store.Currencies
import ExpenseLedger.Store.Expenses
import ExpenseLedger.Text.Blank

/-!
# Writing an expense

An expense is written in five steps, between which other callers may change the books: the user
is read, its category, the rate of its currency, then the converted expense is booked, and the
user's finished reports are dropped. An expense dated in the current month is charged against
the monthly limit; all others are booked without a limit.

`Writing` holds how far one such call has come, and `writeExpense` is the call without anybody
in between.
-/

namespace ExpenseLedger

/-- An expense as its user asks for it: the amount is in the user's display currency. -/
structure ExpenseRequest where
  user : Int
  category : String
  amount : Amount
  time : Instant
  deriving DecidableEq, Repr

namespace ExpenseRequest

/-- The name under which the category is looked up. -/
def categoryName (request : ExpenseRequest) : String :=
  trim request.category

def checkAmount (request : ExpenseRequest) : Outcome Unit :=
  if request.amount.isPositive then .ok ()
  else .error (.invalidAmount (.notPositive request.amount))

def readUser (request : ExpenseRequest) (store : Store) : Outcome Int := do
  request.checkAmount
  let user ← store.user request.user
  .ok user.currency

def readCategory (request : ExpenseRequest) (store : Store) : Outcome Int := do
  match ← store.categoryId request.user request.categoryName with
  | some id => .ok id
  | none => .error (.categoryNotFound request.categoryName)

/-- Reads the rate and converts the amount, which has to stay positive. -/
def price (request : ExpenseRequest) (currency : Int) (store : Store) : Outcome Int := do
  let base ← store.toBase request.amount.minor currency
  if 0 < base then .ok base else .error (.invalidAmount (.tooSmallToRecord request.amount))

/-- Books the converted expense. -/
def record (request : ExpenseRequest) (now : Instant) (category base : Int) (store : Store) :
    Outcome Store :=
  store.insertExpense { user := request.user, category, time := request.time, amount := base }
    (decide (request.time.InMonthOf now))

end ExpenseRequest

/-- How far the writing of an expense has come. -/
inductive Writing where
  | begun
  | userRead (currency : Int)
  | categoryRead (currency category : Int)
  | priced (category base : Int)
  | recorded
  | finished (result : Outcome Unit)

namespace Writing

/-- Goes on with what was read, or ends with the error. -/
def proceed {α : Type} (next : α → Writing) : Outcome α → Writing
  | .ok a => next a
  | .error e => .finished (.error e)

/-- The next step of writing an expense. -/
def step (request : ExpenseRequest) (now : Instant) (books : Books) :
    Writing → Writing × Books
  | .begun => (proceed .userRead (request.readUser books.store), books)
  | .userRead currency =>
    (proceed (.categoryRead currency) (request.readCategory books.store), books)
  | .categoryRead currency category =>
    (proceed (.priced category) (request.price currency books.store), books)
  | .priced category base =>
    match books.withStore (request.record now category base) with
    | .ok books => (.recorded, books)
    | .error e => (.finished (.error e), books)
  | .recorded => (.finished (.ok ()), books.invalidate request.user)
  | .finished result => (.finished result, books)

def result? : Writing → Option (Outcome Unit)
  | .finished result => some result
  | _ => none

/-- The next step of each of several callers with one wish, in turn. -/
def stepAll (request : ExpenseRequest) (now : Instant) (books : Books) :
    List Writing → List Writing × Books
  | [] => ([], books)
  | writing :: rest =>
    let (writing, books) := writing.step request now books
    let (rest, books) := stepAll request now books rest
    (writing :: rest, books)

/-- How many steps there are from the first stage to the last. -/
def stepCount : Nat := 5

/-- A number of rounds in which each of several callers takes one step. -/
def rounds (request : ExpenseRequest) (now : Instant) :
    Nat → List Writing → Books → List Writing × Books
  | 0, writings, books => (writings, books)
  | count + 1, writings, books =>
    let (writings, books) := stepAll request now books writings
    rounds request now count writings books

end Writing

namespace Books

/-- Writes one expense for each of several callers who take turns step by step. -/
def writeInTurns (books : Books) (request : ExpenseRequest) (now : Instant) (callers : Nat) :
    List (Outcome Unit) × Books :=
  let begun := List.replicate callers Writing.begun
  let (writings, books) := Writing.rounds request now Writing.stepCount begun books
  (writings.filterMap Writing.result?, books)

def writeExpense (books : Books) (request : ExpenseRequest) (now : Instant) : Outcome Books := do
  let currency ← request.readUser books.store
  let category ← request.readCategory books.store
  let base ← request.price currency books.store
  let books ← books.withStore (request.record now category base)
  .ok (books.invalidate request.user)

end Books
end ExpenseLedger
