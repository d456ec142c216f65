import ExpenseLedger.Calendar.Timestamp
import ExpenseLedger.CommandLine.Command
import ExpenseLedger.CommandLine.Words

/-!
# The grammar of the command line

Which options and arguments each command takes, and how a whole command line becomes an
invocation. Faults of a command come before those of the settings in front of it that are still
held back.
-/

namespace ExpenseLedger
namespace CommandLine

open Words

/-- All values that commands take; each command fills some of them. -/
structure Given where
  user : Option Int := none
  text : Option String := none
  amount : Option Amount := none
  date : Option Instant := none
  period : Option Period := none
  first : Bool := false
  second : Bool := false

def userOption : Slot Given where
  name := "user"
  given g := g.user.isSome
  store g word := (readInt64 word.toList).toOption.map fun user => { g with user }

def textArgument : Slot Given where
  name := "text"
  given g := g.text.isSome
  store g word := some { g with text := word }

def amountArgument : Slot Given where
  name := "amount"
  given g := g.amount.isSome
  store g word := (Amount.parse word).toOption.map fun amount => { g with amount }

def dateOption : Slot Given where
  name := "date"
  given g := g.date.isSome
  store g word := (Timestamp.read word).toOption.map fun date => { g with date }

def periodOption : Slot Given where
  name := "period"
  given g := g.period.isSome
  store g word := (Period.ofName? word).map fun period => { g with period }

def firstSwitch (name : String) : Switch Given where
  name := name
  given g := g.first
  turnOn g := { g with first := true }

def secondSwitch (name : String) : Switch Given where
  name := name
  given g := g.second
  turnOn g := { g with second := true }

/-- A command without commands below it: what it takes, and what it is made of its values. -/
structure Leaf where
  level : Level Given
  make : Given → Option Command

def Leaf.read (leaf : Leaf) (words : List String) : Except UsageFault Command := do
  let (progress, _) ← leaf.level.read {} words
  let values ← resolve progress.pending progress.values
  match leaf.make values with
  | some command => .ok command
  | none => .error .missingArgument

def ofUser (make : Int → Command) : Leaf where
  level := { options := [userOption] }
  make g := g.user.map make

/-- The commands of each group. -/
def groups : List (String × List (String × Leaf)) :=
  [("user",
    [("add", ofUser .userAdd),
      ("reset", ofUser .userReset)]),
   ("category",
    [("add",
      { level := { options := [userOption], arguments := [textArgument] }
        make := fun g => do some (.categoryAdd (← g.user) (← g.text)) })]),
   ("expense",
    [("add",
      { level :=
          { options := [userOption, dateOption], arguments := [textArgument, amountArgument] }
        make := fun g => do some (.expenseAdd (← g.user) (← g.text) (← g.amount) g.date) })]),
   ("limit",
    [("show", ofUser .limitShow),
      ("set",
        { level := { options := [userOption], arguments := [amountArgument] }
          make := fun g => do some (.limitSet (← g.user) (← g.amount)) }),
      ("reset", ofUser .limitReset),
      ("reset-all", { level := {}, make := fun _ => some .limitResetAll })]),
   ("currency",
    [("list", { level := {}, make := fun _ => some .currencyList }),
      ("refresh", { level := {}, make := fun _ => some .currencyRefresh }),
      ("set",
        { level := { options := [userOption], arguments := [textArgument] }
          make := fun g => do some (.currencySet (← g.user) (← g.text)) })])]

/-- The commands that stand in no group. -/
def lone : List (String × Leaf) :=
  [("init",
    { level := { switches := [firstSwitch "exist-ok"] }
      make := fun g => some (.init g.first) }),
   ("report",
    { level := { options := [userOption, periodOption], switches := [firstSwitch "local"] }
      make := fun g => g.user.map fun user => .report user (g.period.getD default) g.first }),
   ("worker",
    { level := { switches := [firstSwitch "refresh-rates", secondSwitch "reset-limits"] }
      make := fun g => some (.worker g.first g.second) })]

/-- The settings in front of the command. -/
structure Settings where
  logLevel : Option LogLevel := none
  home : Option String := none

def logLevelOption : Slot Settings where
  name := "log-level"
  given s := s.logLevel.isSome
  store s word := (LogLevel.ofText? word).map fun level => { s with logLevel := level }

def homeOption : Slot Settings where
  name := "home"
  given s := s.home.isSome
  store s word := some { s with home := word }

def program : Level Settings where
  options := [logLevelOption, homeOption]
  commands := lone.map Prod.fst ++ groups.map Prod.fst

/-- What asking for help on a command leads to. -/
def help : List String → UsageFault
  | [] => .help
  | name :: rest =>
    match groups.lookup name, rest with
    | some _, [] => .help
    | some leaves, [sub] =>
      if sub == "help" || (leaves.lookup sub).isSome then .help else .unknownCommand
    | some _, _ => .unknownCommand
    | none, [] => if name == "help" || (lone.lookup name).isSome then .help else .unknownCommand
    | none, _ => .unknownCommand

/-- What asking a group for help on one of its commands leads to. -/
def groupHelp (leaves : List (String × Leaf)) : List String → UsageFault
  | [] => .help
  | [sub] => if sub == "help" || (leaves.lookup sub).isSome then .help else .unknownCommand
  | _ => .unknownCommand

def readGroup (leaves : List (String × Leaf)) (words : List String) :
    Except UsageFault Command := do
  let level : Level Unit := { commands := leaves.map Prod.fst }
  match ← level.read () words with
  | (_, none) => .error .helpForEmpty
  | (_, some (name, rest)) =>
    if name = "help" then
      .error (groupHelp leaves rest)
    else
      match leaves.lookup name with
      | some leaf => leaf.read rest
      | none => .error .unknownCommand

def readCommand (name : String) (words : List String) : Except UsageFault Command :=
  if name = "help" then
    .error (help words)
  else
    match groups.lookup name with
    | some leaves => readGroup leaves words
    | none =>
      match lone.lookup name with
      | some leaf => leaf.read words
      | none => .error .unknownCommand

def read (defaultHome : String) (words : List String) : Except UsageFault Invocation := do
  let (progress, chosen) ← program.read {} words
  match chosen with
  | some (name, rest) =>
    let command ← readCommand name rest
    let settings ← resolve progress.pending progress.values
    .ok {
      logLevel := settings.logLevel.getD .info
      home := settings.home.getD defaultHome
      command }
  | none =>
    let settings ← resolve progress.pending progress.values
    if settings.logLevel.isNone && settings.home.isNone then .error .helpForEmpty
    else .error .missingCommand

end CommandLine
end ExpenseLedger
