import ExpenseLedger.CommandLine.Command
import ExpenseLedger.Commands.Working

/-!
# Running commands

Every command but the one that makes the home loads it first. A command runs by itself, or beside
a worker; whatever still waits when time has passed is interrupted.
-/

namespace ExpenseLedger
namespace Machine

/-- Loads the home and goes on with its configuration. -/
def loaded (machine : Machine) (next : Configuration → Machine → Outcome Output × Machine) :
    Outcome Output × Machine :=
  match machine.load with
  | (.ok configuration, machine) => next configuration machine
  | (.error e, machine) => (.error e, machine)

/-- Loads the home and runs a command on its books. -/
def onLoadedBooks (machine : Machine) (command : BookCommand) : Outcome Output × Machine :=
  machine.loaded fun _ => onBooks command

/-- Runs a worker that finds nobody waiting, and interrupts it. -/
def runWorker (duties : WorkerDuties) (machine : Machine) : Outcome Output × Machine :=
  machine.loaded fun configuration machine =>
    let queue := machine.openQueue false
    let (count, machine) := (machine.beginDuties configuration duties).work configuration queue
    (.ok (workerOutput count), machine)

/-- Runs a command that waits for nobody: a report is made by a worker in the same process. -/
def perform (command : Command) (machine : Machine) : Outcome Output × Machine :=
  match command with
  | .init existOk => machine.init existOk
  | .userAdd user =>
    machine.loaded fun configuration => onBooks (.userAdd configuration.file.monthLimit user)
  | .userReset user => machine.onLoadedBooks (.userReset user)
  | .categoryAdd user name => machine.onLoadedBooks (.categoryAdd user name)
  | .expenseAdd user category amount date =>
    let time := date.getD machine.instant
    machine.onLoadedBooks (.expenseAdd { user, category, amount, time } machine.instant)
  | .limitShow user => machine.onLoadedBooks (.limitShow user)
  | .limitSet user amount => machine.onLoadedBooks (.limitSet user amount)
  | .limitReset user => machine.onLoadedBooks (.limitReset user)
  | .limitResetAll => machine.onLoadedBooks .limitResetAll
  | .currencyList =>
    machine.loaded fun configuration => onBooks (.currencyList configuration.file.reference)
  | .currencyRefresh => machine.loaded fun configuration => currencyRefresh configuration
  | .currencySet user code => machine.onLoadedBooks (.currencySet user code)
  | .report user period _ =>
    machine.loaded fun configuration => localReport configuration user period
  | .worker refreshRates resetLimits => machine.runWorker { refreshRates, resetLimits }

/-- Begins a command in a process of its own. -/
def begin (command : Command) (machine : Machine) : Begun × Machine :=
  let machine := machine.withProcess
  match command with
  | .report user period false =>
    match machine.load with
    | (.ok configuration, machine) => machine.beginReport configuration user period
    | (.error e, machine) => (.ended (.error e), machine)
  | command =>
    let (result, machine) := machine.perform command
    (.ended result, machine)

/-- Runs a command, lets time pass, and interrupts the command if it still waits. -/
def run (command : Command) (millis : Nat) (machine : Machine) : Outcome Output × Machine :=
  let (begun, machine) := machine.begin command
  (machine.later millis).conclude begun

/-- Begins the command that runs beside a worker, if there is one. -/
def beginBeside (command : Option Command) (machine : Machine) : Option Begun × Machine :=
  match command with
  | none => (none, machine)
  | some command =>
    let (begun, machine) := machine.begin command
    (some begun, machine)

def concludeBeside (begun : Option Begun) (machine : Machine) :
    Option (Outcome Output) × Machine :=
  match begun with
  | none => (none, machine)
  | some begun =>
    let (result, machine) := machine.conclude begun
    (some result, machine)

/-- Works off a queue beside whatever has been begun. -/
def workBeside (configuration : Configuration) (queue : QueueHandle) (begun : Option Begun)
    (machine : Machine) : Nat × Option Begun × Machine :=
  match begun with
  | some (.waiting report) =>
    let (count, report, machine) := machine.workFor configuration queue report
    (count, some (.waiting report), machine)
  | begun =>
    let (count, machine) := machine.work configuration queue
    (count, begun, machine)

/-- Runs a worker and another command beside it, lets time pass, and interrupts both. The result
of the worker comes first. -/
def runBeside (duties : WorkerDuties) (command : Option Command) (millis : Nat)
    (machine : Machine) : Outcome Output × Option (Outcome Output) × Machine :=
  match machine.withProcess.load with
  | (.error e, machine) =>
    let (begun, machine) := machine.beginBeside command
    let (result, machine) := (machine.later millis).concludeBeside begun
    (.error e, result, machine)
  | (.ok configuration, machine) =>
    let queue := machine.openQueue false
    let machine := machine.beginDuties configuration duties
    let (begun, machine) := machine.beginBeside command
    let (count, begun, machine) := machine.workBeside configuration queue begun
    let (result, machine) := machine.concludeBeside begun
    (.ok (workerOutput count), result, machine.passDuties configuration duties millis)

end Machine
end ExpenseLedger
