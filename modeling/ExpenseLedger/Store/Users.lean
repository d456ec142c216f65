import ExpenseLedger.Store.Tables

/-!
# The table of users

A new user has the reference currency, whose id is 0, and both limits set to the same amount.
Erasing a user takes along its categories and expenses, and whatever expense is booked under one
of those categories.
-/

namespace ExpenseLedger
namespace Store

/-- The id of the reference currency. -/
def referenceCurrency : Int := 0

/-- Makes a user; false, and no change, if there is one already. -/
def addUser (store : Store) (user limit : Int) : Outcome (Bool × Store) := do
  store.reach .insertUser [.users]
  match store.user? user with
  | some _ => .ok (false, store)
  | none =>
    match store.currency? referenceCurrency with
    | none => .error (.database (.failed .insertUser))
    | some _ =>
      let row : User :=
        { id := user, currency := referenceCurrency, defaultLimit := limit, currentLimit := limit }
      .ok (true, store.putUser row)

def user (store : Store) (id : Int) : Outcome User := do
  store.reach .queryUser [.users]
  match store.user? id with
  | some user => .ok user
  | none => .error (.userNotFound id)

/-- The store without a user and all that hangs on it. -/
def withoutUser (store : Store) (user : Int) : Store :=
  let gone := (store.categories.filter fun category => category.user = user).map Category.id
  { store with
    users := store.users.filter fun row => row.id ≠ user
    categories := store.categories.filter fun category => category.user ≠ user
    expenses := store.expenses.filter fun expense =>
      expense.user ≠ user ∧ ¬gone.contains expense.category }

/-- Erases a user with its categories and expenses. -/
def deleteUser (store : Store) (user : Int) : Outcome Store := do
  store.reach .deleteUser [.users]
  match store.user? user with
  | some _ => .ok (store.withoutUser user)
  | none => .error (.userNotFound user)

def changeUser (store : Store) (statement : Statement) (user : Int)
    (change : User → Outcome User) : Outcome Store := do
  store.reach statement [.users]
  match store.user? user with
  | none => .error (.userNotFound user)
  | some row =>
    let row ← change row
    .ok (store.putUser row)

/-- Gives a user another currency, one that exists. -/
def setCurrency (store : Store) (user currency : Int) : Outcome Store :=
  store.changeUser .changeCurrency user fun row =>
    match store.currency? currency with
    | some _ => .ok { row with currency }
    | none => .error (.currencyNotFound (integerText currency))

def setLimit (store : Store) (user limit : Int) : Outcome Store :=
  store.changeUser .changeLimit user fun row =>
    .ok { row with defaultLimit := limit, currentLimit := limit }

/-- A user whose current limit is the default one again. -/
def restored (user : User) : User :=
  { user with currentLimit := user.defaultLimit }

/-- Sets the current limit of a user to the default one. -/
def resetLimit (store : Store) (user : Int) : Outcome Store :=
  store.changeUser .resetLimit user fun row => .ok (restored row)

/-- Sets the current limit of every user to the default one; tells how many users there are. -/
def resetAllLimits (store : Store) : Outcome (Nat × Store) := do
  store.reach .resetAllLimits [.users]
  .ok (store.users.length, { store with users := store.users.map restored })

/-- Takes an amount off the current limit of a user, as far as it goes. -/
def charge (store : Store) (user amount : Int) : Outcome Store :=
  store.changeUser .chargeLimit user fun row =>
    let remaining := row.currentLimit - amount
    if ¬FitsInt64 remaining then .error (.database (.failed .chargeLimit))
    else if remaining < 0 then .error .limitExceeded
    else .ok { row with currentLimit := remaining }

end Store
end ExpenseLedger
