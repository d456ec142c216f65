import ExpenseLedger.Commands.Machine
import ExpenseLedger.Commands.SpendingReport

/-!
# Reports on a machine

A report either brings its own worker, or it listens at the callback address and waits for a
worker that is run beside it. Whoever waits may be interrupted.
-/

namespace ExpenseLedger

/-- A report that waits for a worker, and the address at which it listens. -/
structure WaitingReport where
  command : ReportCommand
  address : Net.SocketAddress

/-- A command that has been begun: it has ended, or it is a report that waits. -/
inductive Begun where
  | ended (result : Outcome Output)
  | waiting (report : WaitingReport)

namespace Machine

def reportCommand (configuration : Configuration) (user : Int) (period : Period)
    (queue : QueueHandle) (machine : Machine) : ReportCommand where
  period := period
  settings := { publisher := .queue queue
                cacheTtl := configuration.file.cacheLifetime * 1000
                timeout := configuration.file.reportTimeout * 1000 }
  call := { id := (Uuid.ofNat? machine.started).getD default, user
            since := (period.windowStart? machine.instant).getD machine.instant }
  desk := { books := machine.books }

/-- The result of a report command, and the machine that it leaves. -/
def endReport (command : ReportCommand) (machine : Machine) : Outcome Output × Machine :=
  (command.output, machine.withStore command.store)

/-- Makes a report with a worker in the same process. -/
def localReport (configuration : Configuration) (user : Int) (period : Period)
    (machine : Machine) : Outcome Output × Machine :=
  let queue := machine.openQueue true
  let command := machine.reportCommand configuration user period queue
  let command := (command.run machine.now).answerFrom queue machine.now
  machine.endReport (command.run machine.now).interrupt

/-- Begins a report that a worker elsewhere answers. The address at which the answer is expected
has to be free. -/
def beginReport (configuration : Configuration) (user : Int) (period : Period)
    (machine : Machine) : Begun × Machine :=
  let address := configuration.callbackAddress
  if machine.listeners.any address.overlaps then
    (.ended (.error (.transportUnavailable (.cannotBind address.toText))), machine)
  else
    let command := machine.reportCommand configuration user period (machine.openQueue false)
    let command := command.run machine.now
    match command.call.result? with
    | some _ =>
      let (result, machine) := machine.endReport command
      (.ended result, machine)
    | none => (.waiting { command, address }, machine.withStore command.store)

/-- Lets a report go on that has waited, and interrupts it if it still waits. -/
def concludeReport (report : WaitingReport) (machine : Machine) : Outcome Output × Machine :=
  let command := (report.command.withStore machine.home.store).run machine.now
  machine.endReport command.interrupt

/-- The result of a command that has been begun, which is interrupted if it still waits. -/
def conclude (begun : Begun) (machine : Machine) : Outcome Output × Machine :=
  match begun with
  | .ended result => (result, machine)
  | .waiting report => machine.concludeReport report

end Machine
end ExpenseLedger
