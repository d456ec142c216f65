import ExpenseLedger.Calendar.Instant
import ExpenseLedger.Report.Expense
import ExpenseLedger.Store.Users

/-!
# The tables of categories and expenses

An expense is booked in one transaction with the charge against the monthly limit, if there is
one: either both happen or neither. Expenses are read back by time, those of one second in the
order in which they were booked.
-/

namespace ExpenseLedger

/-- An expense that is to be booked; the amount is in minor units of the reference currency. -/
structure NewExpense where
  user : Int
  category : Int
  time : Instant
  amount : Int
  deriving DecidableEq, Repr

namespace Store

/-- The id of the category of a user under a name, if it has one. -/
def categoryId (store : Store) (user : Int) (name : String) : Outcome (Option Int) := do
  store.reach .queryCategory [.categories]
  .ok ((store.categoryNamed? user name).map Category.id)

/-- Makes a category; false if the user has one of that name, and then the number that the new
one would have had is spent all the same. -/
def addCategory (store : Store) (user : Int) (name : String) : Outcome (Bool × Store) := do
  store.reach .insertCategory [.categories]
  grant .insertCategory store.nextCategory
  match store.categoryNamed? user name with
  | some _ => .ok (false, { store with nextCategory := store.nextCategory + 1 })
  | none =>
    match store.user? user with
    | none => .error (.userNotFound user)
    | some _ =>
      let row : Category := { id := store.nextCategory, user, name }
      .ok (true, { store with
        categories := store.categories ++ [row]
        nextCategory := store.nextCategory + 1 })

def addExpense (store : Store) (expense : NewExpense) : Outcome Store := do
  store.reach .insertExpense [.expenses]
  grant .insertExpense store.nextExpense
  match store.user? expense.user, store.category? expense.category with
  | some _, some _ =>
    let row : Expense :=
      { id := store.nextExpense, user := expense.user, category := expense.category,
        time := expense.time.seconds, amount := expense.amount }
    .ok { store with expenses := store.expenses ++ [row], nextExpense := store.nextExpense + 1 }
  | _, _ => .error (.userNotFound expense.user)

/-- Books an expense, charged against the monthly limit of its user if `enforce` says so. -/
def insertExpense (store : Store) (expense : NewExpense) (enforce : Bool) : Outcome Store := do
  let charged ← if enforce then store.charge expense.user expense.amount else .ok store
  charged.addExpense expense

/-- An expense with the name of its category. -/
def expenseRow? (store : Store) (expense : Expense) : Option ExpenseRow :=
  (store.category? expense.category).map fun category =>
    { categoryId := expense.category, categoryName := category.name, time := expense.time,
      amount := expense.amount }

/-- The expenses of a user since a second, by time and then by age. -/
def expenseRows (store : Store) (user since : Int) : List ExpenseRow :=
  let chosen := store.expenses.filter fun expense => expense.user = user ∧ since ≤ expense.time
  (chosen.mergeSort fun a b => decide (a.time ≤ b.time)).filterMap store.expenseRow?

def expensesSince (store : Store) (user : Int) (since : Instant) : Outcome (List ExpenseRow) := do
  store.reach .queryExpenses [.expenses, .categories]
  .ok (store.expenseRows user since.seconds)

end Store
end ExpenseLedger
