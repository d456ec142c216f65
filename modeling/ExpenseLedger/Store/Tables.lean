import ExpenseLedger.Error
import ExpenseLedger.Request.Message
import ExpenseLedger.Rows
import ExpenseLedger.Store.Basic

/-!
# The tables

Everything that outlives a process: currencies, users with their categories and expenses, the
queue of report requests and the shared report cache. Rows of users, currencies and cached
reports are kept in the order of their keys; categories, expenses and messages get numbers of 64
bits that are never given twice, and are kept in the order in which they were made.

A statement that names a table out of reach fails. Checks that the tables keep among themselves
need no statement and still hold then.
-/

namespace ExpenseLedger

inductive Table where
  | currencies
  | users
  | categories
  | expenses
  | requests
  | cachedReports
  deriving DecidableEq, Repr

/-- A category of a user. -/
structure Category where
  id : Int
  user : Int
  name : String
  deriving DecidableEq, Repr, Inhabited

/-- An expense: the time in whole seconds, the amount in minor units of the reference
currency. -/
structure Expense where
  id : Int
  user : Int
  category : Int
  time : Int
  amount : Int
  deriving DecidableEq, Repr, Inhabited

/-- The lease of a consumer on a message, from a time in milliseconds on. -/
structure Claim where
  consumer : Nat
  since : Int
  deriving DecidableEq, Repr, Inhabited

/-- A message in the queue. Without an owner it is in the shared stream, else in the private
stream of its owner. -/
structure QueuedMessage where
  seq : Int
  message : Message
  owner : Option Nat
  enqueuedAt : Int
  claim : Option Claim
  attempts : Nat
  deriving DecidableEq, Repr, Inhabited

/-- A row of the shared report cache; it is of use before `expiresAt`, in milliseconds. -/
structure CachedReport where
  key : String
  windowStart : Int
  body : String
  expiresAt : Int
  deriving DecidableEq, Repr, Inhabited

/-- The tables, the numbers that come next, and what is out of reach. -/
structure Store where
  currencies : List Currency := []
  users : List User := []
  categories : List Category := []
  expenses : List Expense := []
  messages : List QueuedMessage := []
  cachedReports : List CachedReport := []
  nextCategory : Int := 1
  nextExpense : Int := 1
  nextMessage : Int := 1
  outOfReach : List Table := []
  deriving DecidableEq, Inhabited

namespace Store

/-- All of the tables can be reached. -/
def reaches (store : Store) (tables : List Table) : Bool :=
  tables.all fun table => !store.outOfReach.contains table

/-- A statement fails unless all tables that it names can be reached. -/
def reach (store : Store) (statement : Statement) (tables : List Table) : Outcome Unit :=
  if store.reaches tables then .ok () else .error (.database (.failed statement))

/-- A statement that makes a row fails unless 64 bits hold the number of the row. -/
def grant (statement : Statement) (number : Int) : Outcome Unit :=
  if FitsInt64 number then .ok () else .error (.database (.failed statement))

/-- A task of the queue fails unless its table can be reached. -/
def reachQueue (store : Store) (task : QueueTask) : Outcome Unit :=
  if store.reaches [.requests] then .ok () else .error (.transportUnavailable (.queue task))

def currency? (store : Store) (id : Int) : Option Currency :=
  Rows.get? Currency.id store.currencies id

def user? (store : Store) (id : Int) : Option User :=
  Rows.get? User.id store.users id

def category? (store : Store) (id : Int) : Option Category :=
  store.categories.find? fun category => category.id = id

/-- The category of a user under a name. -/
def categoryNamed? (store : Store) (user : Int) (name : String) : Option Category :=
  store.categories.find? fun category => category.user = user ∧ category.name = name

/-- The store with a row of a user put in its place. -/
def putUser (store : Store) (user : User) : Store :=
  { store with users := Rows.put User.id user store.users }

end Store
end ExpenseLedger
