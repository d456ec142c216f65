import ExpenseLedger.Callback.Client
import ExpenseLedger.Commands.Accounts
import ExpenseLedger.Commands.Reporting

/-!
# Workers on a machine

A worker works off the queue of the home and pushes replies to the callback address. Besides, it
may ask for exchange rates at once and then at every interval, and may start all limits over when
a new month begins.
-/

namespace ExpenseLedger

/-- What a worker does besides answering requests. -/
structure WorkerDuties where
  refreshRates : Bool
  resetLimits : Bool
  deriving DecidableEq, Repr

namespace Machine

/-- How a worker reaches the desk of a report: through the callback endpoint, if one listens at
the address and connections get through. -/
def callbackTo (address : Net.SocketAddress) (isListening : Bool) : Callback :=
  let send (request : Http.Request) (desk : Desk) : Option Http.Response × Desk :=
    if isListening then
      let (receipt, desk) := Callback.serve Callback.toDesk
        { method := "POST", target := request.path, contentType := some "application/json"
          body := request.body } desk
      (some receipt.toResponse, desk)
    else (none, desk)
  Callback.sendReport ({} : RetryPolicy).maxRetries send address.toText

/-- Works off a queue from a desk; tells how many requests were handled. -/
def workAt (configuration : Configuration) (queue : QueueHandle) (isListening : Bool) (now : Int)
    (desk : Desk) : Nat × Desk :=
  let callback := callbackTo configuration.callbackAddress isListening
  let (handlings, desk) := Worker.workOff queue callback now desk
  (handlings.length, desk)

/-- Works off a queue while nobody waits. -/
def work (configuration : Configuration) (queue : QueueHandle) (machine : Machine) :
    Nat × Machine :=
  let (count, desk) := workAt configuration queue false machine.now { books := machine.books }
  (count, machine.withStore desk.books.store)

/-- Works off a queue while a report waits. -/
def workFor (configuration : Configuration) (queue : QueueHandle) (report : WaitingReport)
    (machine : Machine) : Nat × WaitingReport × Machine :=
  let isListening := machine.connects && report.address.covers configuration.callbackAddress
  let command := report.command.withStore machine.home.store
  let (count, desk) := workAt configuration queue isListening machine.now command.desk
  (count, { report with command := { command with desk } }, machine.withStore desk.books.store)

def workerOutput (count : Nat) : Output :=
  { message := "Handled " ++ integerText count ++ " report requests"
    value := some (.integer count) }

def refreshTimes (configuration : Configuration) : Nat → Machine → Machine
  | 0, machine => machine
  | count + 1, machine => refreshTimes configuration count (machine.refresh configuration).2

def beginDuties (configuration : Configuration) (duties : WorkerDuties) (machine : Machine) :
    Machine :=
  if duties.refreshRates then machine.refreshTimes configuration 1 else machine

/-- Lets time pass while a worker does its duties. Asking for rates changes nothing more once the
service repeats itself. -/
def passDuties (configuration : Configuration) (duties : WorkerDuties) (millis : Nat)
    (machine : Machine) : Machine :=
  let intervals := millis / (configuration.file.ratesRefresh * 1000)
  let distinct := machine.service.responses.length + 1
  let asked := if duties.refreshRates then min intervals distinct else 0
  let newMonth := machine.instant.startOfNextMonth
  let machine := (machine.refreshTimes configuration asked).later millis
  if duties.resetLimits ∧ newMonth ≤ machine.instant then
    (machine.onBooks BookCommand.limitResetAll).2
  else machine

end Machine
end ExpenseLedger
