import ExpenseLedger.Commands.Output
import ExpenseLedger.Ledger.Accounts

/-!
# Commands on accounts

Users, categories, expenses, limits and display currencies. The limits of a user are told in its
display currency, as they are once the change has been made.
-/

namespace ExpenseLedger
namespace BookCommand

/-- An amount and the code of its currency. -/
def priced (amount : Amount) (currency : String) : String :=
  amount.toText ++ " " ++ currency

def quoted (name : String) : String :=
  "'" ++ name ++ "'"

def tellLimits (user : Int) (message : LimitStatus → String) (books : Books) :
    Outcome Output := do
  let status ← books.limitStatus user
  .ok { message := message status, value := some status.toJson }

/-- Makes a user with a limit in reference minor units. -/
def userAdd (limit user : Int) : BookCommand :=
  after (fun books => books.addUser user limit) fun created _ =>
    let name := integerText user
    .ok { message := if created then "Added user " ++ name else "User " ++ name ++ " already exists"
          value := some (.bool created) }

def userReset (user : Int) : BookCommand :=
  afterChange (fun books => books.resetUser user) fun _ =>
    .ok { message := "Erased user " ++ integerText user }

def categoryAdd (user : Int) (name : String) : BookCommand :=
  after (fun books => books.addCategory user name) fun created _ =>
    .ok { message := if created then "Added category " ++ quoted name
                     else "Category " ++ quoted name ++ " already exists"
          value := some (.bool created) }

/-- Writes an expense, and tells what is left of the limit. -/
def expenseAdd (request : ExpenseRequest) (now : Instant) : BookCommand :=
  afterChange (fun books => books.writeExpense request now) <|
    tellLimits request.user fun status =>
      "Recorded " ++ priced request.amount status.currency ++ " under " ++
        quoted request.category ++ ", " ++ priced status.remaining status.currency ++
        " left this month"

def limitShow (user : Int) : BookCommand :=
  looking <| tellLimits user fun status =>
    "Monthly limit " ++ priced status.defaultLimit status.currency ++ ", " ++
      priced status.remaining status.currency ++ " left this month"

def limitSet (user : Int) (amount : Amount) : BookCommand :=
  afterChange (fun books => books.setLimit user amount) <|
    tellLimits user fun status =>
      "Monthly limit set to " ++ priced status.defaultLimit status.currency

def limitReset (user : Int) : BookCommand :=
  afterChange (fun books => books.resetLimit user) <|
    tellLimits user fun status => priced status.remaining status.currency ++ " left this month"

def limitResetAll : BookCommand :=
  after Books.resetAllLimits fun count _ =>
    .ok { message := "Reset the monthly limit of " ++ integerText count ++ " users"
          value := some (.integer count) }

/-- A line about a currency, its id right-aligned in three columns. -/
def currencyLine (currency : Currency) : String :=
  let id := integerDigits currency.id
  String.ofList (List.replicate (3 - id.length) ' ' ++ id) ++ " " ++ currency.code ++ " " ++
    currency.rate.toText

def currencyList (reference : String) : BookCommand :=
  looking fun books => do
    let currencies ← books.store.listCurrencies
    .ok { message := "Currencies per 1 " ++ reference ++ ":\n" ++
            String.intercalate "\n" (currencies.map currencyLine)
          value := some (.array (currencies.map Currency.toJson)) }

def currencySet (user : Int) (code : String) : BookCommand :=
  after (fun books => books.changeCurrency user code) fun currency _ =>
    .ok { message := "User " ++ integerText user ++ " now uses " ++ currency.code
          value := some currency.toJson }

end BookCommand
end ExpenseLedger
