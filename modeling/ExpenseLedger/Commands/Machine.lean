import ExpenseLedger.Commands.Output
import ExpenseLedger.ExchangeRates
import ExpenseLedger.Home.Directory
import ExpenseLedger.Request.Queue

/-!
# Machines

What commands find around them: a home directory, a clock, addresses that other programs listen
at, and a service for exchange rates. Here are the parts that several commands share, and the two
commands that do not work on the books of a home alone: making the home, and asking the service.
-/

namespace ExpenseLedger

/-- What commands find around them. The clock counts milliseconds; it may be behind a time that it
has shown before. Connections between programs on the machine need not get through. -/
structure Machine where
  home : Home
  now : Int
  behind : Nat := 0
  service : Http.Peer
  listeners : List Net.SocketAddress := []
  connects : Bool := true
  started : Nat := 0

namespace Machine

def instant (machine : Machine) : Instant :=
  Instant.ofMillis machine.now

/-- The machine with its clock put forward, or back. -/
def moveClock (machine : Machine) (millis : Int) : Machine :=
  { machine with now := machine.now + millis, behind := (machine.behind - millis).toNat }

/-- The machine some time later. -/
def later (machine : Machine) (millis : Nat) : Machine :=
  machine.moveClock millis

/-- For how many milliseconds a process waits until a database is open. -/
def databasePatience : Nat := 30000

/-- A process has a database open in time. Timers know the latest time that the clock has shown, and
ring at once if they are due by then. -/
def isInTime (machine : Machine) : Bool :=
  machine.behind < databasePatience

def withProcess (machine : Machine) : Machine :=
  { machine with started := machine.started + 1 }

def withStore (machine : Machine) (store : Store) : Machine :=
  { machine with home := machine.home.withStore store }

def load (machine : Machine) : Outcome Configuration × Machine :=
  let (result, home) := machine.home.load machine.isInTime
  (result, { machine with home })

/-- The books of the home: every process shares its cache of reports. -/
def books (machine : Machine) : Books :=
  { store := machine.home.store, cache := .shared }

/-- Runs a command on the books of the home. -/
def onBooks (command : BookCommand) (machine : Machine) : Outcome Output × Machine :=
  let (result, books) := command machine.books
  (result, machine.withStore books.store)

/-- The queue as the process opens it that was started last. -/
def openQueue (machine : Machine) (isPrivate : Bool) : QueueHandle :=
  { consumer := machine.started, isPrivate }

/-! ## Making a home -/

/-- Makes a home with the standard configuration. One that has a configuration already is left
as it is, if that is allowed. -/
def init (existOk : Bool) (machine : Machine) : Outcome Output × Machine :=
  if existOk ∧ machine.home.config.isSome then
    let (result, machine) := machine.load
    (result.map fun _ => { message := "The spendbook directory already exists" }, machine)
  else
    let (result, home) := machine.home.create {} machine.isInTime
    let message := "Successfully created the spendbook directory at " ++ home.path
    (result.map fun _ => { message }, { machine with home })

/-! ## Exchange rates -/

def refresh (configuration : Configuration) (machine : Machine) : Outcome Nat × Machine :=
  let (result, service) := ExchangeRates.refresh configuration.ratesUrl
    configuration.file.currencies machine.service machine.home.store
  let machine := { machine with service }
  match result with
  | .ok (count, store) => (.ok count, machine.withStore store)
  | .error e => (.error e, machine)

def currencyRefresh (configuration : Configuration) (machine : Machine) :
    Outcome Output × Machine :=
  let (result, machine) := machine.refresh configuration
  let tell (count : Nat) : Output :=
    { message := "Updated " ++ integerText count ++ " exchange rates"
      value := some (.integer count) }
  (result.map tell, machine)

end Machine
end ExpenseLedger
