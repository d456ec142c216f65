import ExpenseLedger.Calendar.Period
import ExpenseLedger.Money.Amount

/-!
# Commands

What a user of the command line can ask for, and the settings that stand in front of it.
-/

namespace ExpenseLedger

/-- How much is logged. -/
inductive LogLevel where
  | off
  | error
  | warn
  | info
  | debug
  | trace
  deriving DecidableEq, Repr

namespace LogLevel

def name : LogLevel → String
  | .off => "off"
  | .error => "error"
  | .warn => "warn"
  | .info => "info"
  | .debug => "debug"
  | .trace => "trace"

/-- All levels, the quietest first; their positions are their numbers. -/
def everyLevel : List LogLevel := [.off, .error, .warn, .info, .debug, .trace]

/-- The number that a text of digits, with an optional plus sign, stands for. -/
def number? (text : List Char) : Option Nat :=
  let digits :=
    match text with
    | '+' :: rest => rest
    | text => text
  if digits.isEmpty || !digits.all Char.isDigit then none
  else some (Nat.ofDigitChars 10 digits 0)

/-- The level of a number, of a name in any case, or of no text at all. -/
def ofText? (text : String) : Option LogLevel :=
  match number? text.toList with
  | some n => everyLevel[n]?
  | none =>
    if text.isEmpty then some .error
    else everyLevel.find? fun level => level.name.toList = text.toList.map Char.toLower

end LogLevel

inductive Command where
  | init (existOk : Bool)
  | userAdd (user : Int)
  | userReset (user : Int)
  | categoryAdd (user : Int) (name : String)
  | expenseAdd (user : Int) (category : String) (amount : Amount) (date : Option Instant)
  | limitShow (user : Int)
  | limitSet (user : Int) (amount : Amount)
  | limitReset (user : Int)
  | limitResetAll
  | currencyList
  | currencyRefresh
  | currencySet (user : Int) (code : String)
  | report (user : Int) (period : Period) (runLocally : Bool)
  | worker (refreshRates resetLimits : Bool)
  deriving DecidableEq

/-- A command with the settings in front of it. -/
structure Invocation where
  logLevel : LogLevel
  home : String
  command : Command
  deriving DecidableEq

end ExpenseLedger
