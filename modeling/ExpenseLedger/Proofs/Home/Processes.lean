import ExpenseLedger.Proofs.Home.Lived
import ExpenseLedger.Proofs.Report.Effects
import ExpenseLedger.Proofs.Users.Everybody

/-!
# What processes do to a home

A process opens the home, may refresh the rates, and apart from that uses the tables without touching the
currencies. So whatever is run on a machine, alone or beside a worker, leaves a home that has lived
(`Machine.lived_run`, `Machine.lived_runBeside`), and what holds of all such homes holds of all that
processes leave behind.
-/

namespace ExpenseLedger

namespace Store.SameCurrencies

variable {store middle after : Store}

theorem refl (store : Store) : store.SameCurrencies store :=
  ⟨rfl, rfl⟩

theorem trans (first : store.SameCurrencies middle) (second : middle.SameCurrencies after) :
    store.SameCurrencies after :=
  ⟨second.currencies.trans first.currencies, second.outOfReach.trans first.outOfReach⟩

theorem of_changes {user now : Int} {count : Nat} (changes : Changes user now count store after) :
    store.SameCurrencies after := by
  induction changes with
  | trans _ _ ih ih' => exact ih.trans ih'
  | _ => exact ⟨rfl, rfl⟩

theorem of_workedOff (worked : store.WorkedOff after) : store.SameCurrencies after := by
  obtain ⟨messages, rfl, -⟩ := worked
  exact ⟨rfl, rfl⟩

end Store.SameCurrencies

/-! ## Reports -/

namespace ReportCall

variable {settings : ReportSettings} {now : Int} {call : ReportCall} {books after : Books}

theorem Touches.sameCurrencies (touches : call.Touches settings now books after) :
    books.store.SameCurrencies after.store := by
  cases touches with
  | nothing => exact .refl _
  | queued => exact ⟨rfl, rfl⟩
  | looked stage result after found =>
    rw [Books.cachedReport_store found]
    exact .refl _
  | kept report stage after stored =>
    obtain ⟨cachedReports, same⟩ := Books.cacheReport_store stored
    rw [same]
    exact ⟨rfl, rfl⟩

theorem sameCurrencies_steps (count : Nat) (call : ReportCall) (desk : Desk) :
    desk.books.store.SameCurrencies (call.steps settings now count desk).2.books.store := by
  induction count generalizing call desk with
  | zero => exact .refl _
  | succ count ih =>
    have first := (call.step_touches settings now desk).sameCurrencies
    exact first.trans (ih (call.step settings now desk).1 (call.step settings now desk).2)

end ReportCall

namespace ReportCommand

variable (command : ReportCommand) (now : Int)

theorem sameCurrencies_run : command.store.SameCurrencies (command.run now).store :=
  ReportCall.sameCurrencies_steps ReportCall.stepCount command.call command.desk

theorem sameCurrencies_answerFrom (queue : QueueHandle) :
    command.store.SameCurrencies (command.answerFrom queue now).store :=
  .of_workedOff (Worker.workedOff_run queue Callback.toDesk_keepsBooks now _ command.desk)

theorem sameCurrencies_interrupt : command.store.SameCurrencies command.interrupt.store := by
  have same : command.interrupt.store = command.store :=
    congrArg Books.store (command.call.books_cancel command.desk)
  rw [same]
  exact .refl _

end ReportCommand

/-! ## Machines -/

namespace Machine

variable {machine : Machine} {configuration : Configuration}

theorem lived_withStore (lived : machine.home.Lived) {store : Store}
    (same : machine.home.store.SameCurrencies store) : (machine.withStore store).home.Lived :=
  .used lived same

/-- Whatever is done in a home that has been opened. -/
def KeepsLived (act : Configuration → Machine → Outcome Output × Machine) : Prop :=
  ∀ configuration machine, machine.home.Lived → (act configuration machine).2.home.Lived

theorem lived_load (lived : machine.home.Lived) : machine.load.2.home.Lived := by
  rcases machine.opening_home with same | opened
  · exact same ▸ lived
  · exact opened ▸ lived.opened

theorem lived_loaded {act : Configuration → Machine → Outcome Output × Machine}
    (keeps : KeepsLived act) (lived : machine.home.Lived) : (machine.loaded act).2.home.Lived := by
  have opened := lived_load lived
  unfold loaded
  cases loaded : machine.load with
  | mk result after =>
    rw [loaded] at opened
    cases result with
    | ok configuration => exact keeps configuration after opened
    | error e => exact opened

theorem open_books (lived : machine.home.Lived) : machine.books.Open :=
  ⟨rfl, lived.intact.currencies.reached⟩

/-- A command on the books that makes the changes of one user. -/
theorem keepsLived_onBooks {user now : Int} {command : Configuration → Machine → BookCommand}
    (changes : ∀ configuration machine, (command configuration machine).ChangesOnlyFor user now) :
    KeepsLived fun configuration machine => machine.onBooks (command configuration machine) := by
  intro configuration machine lived
  obtain ⟨count, -, changed⟩ := changes configuration machine machine.books (open_books lived)
  exact lived_withStore lived (.of_changes changed)

theorem keepsLived_limitResetAll : KeepsLived fun _ machine => machine.onBooks .limitResetAll := by
  intro configuration machine lived
  show (machine.onBooks .limitResetAll).2.home.Lived
  rw [limitResetAll_left lived.intact.currencies.reached]
  exact lived_withStore lived ⟨rfl, rfl⟩

theorem keepsLived_currencyRefresh :
    KeepsLived fun configuration => currencyRefresh configuration := by
  intro configuration machine lived
  simp only [currencyRefresh_left]
  cases result : (ExchangeRates.refresh configuration.ratesUrl configuration.file.currencies
      machine.service machine.home.store).1 with
  | error e => exact lived
  | ok updated => exact lived.refreshed result

theorem lived_refreshTimes (count : Nat) (lived : machine.home.Lived) :
    (machine.refreshTimes configuration count).home.Lived := by
  induction count generalizing machine with
  | zero => exact lived
  | succ count ih => exact ih (keepsLived_currencyRefresh configuration machine lived)

theorem lived_beginDuties (duties : WorkerDuties) (lived : machine.home.Lived) :
    (machine.beginDuties configuration duties).home.Lived := by
  unfold beginDuties
  split
  · exact lived_refreshTimes 1 lived
  · exact lived

theorem lived_passDuties (duties : WorkerDuties) (millis : Nat) (lived : machine.home.Lived) :
    (machine.passDuties configuration duties millis).home.Lived := by
  unfold passDuties
  extract_lets intervals distinct asked newMonth later
  have refreshed : later.home.Lived := lived_refreshTimes asked lived
  split
  · exact keepsLived_limitResetAll configuration later refreshed
  · exact refreshed

theorem lived_work (queue : QueueHandle) (lived : machine.home.Lived) :
    (machine.work configuration queue).2.home.Lived := by
  obtain ⟨store, left, worked⟩ := work_left configuration queue machine
  rw [left]
  exact lived_withStore lived (.of_workedOff worked)

theorem lived_workFor (queue : QueueHandle) (report : WaitingReport) (lived : machine.home.Lived) :
    (machine.workFor configuration queue report).2.2.home.Lived :=
  lived_withStore lived (.of_workedOff (Worker.workedOff_run queue
    (callbackTo_keepsBooks configuration.callbackAddress _) machine.now _ _))

theorem keepsLived_localReport (user : Int) (period : Period) :
    KeepsLived fun configuration => localReport configuration user period := by
  intro configuration machine lived
  let queue := machine.openQueue true
  let command := machine.reportCommand configuration user period queue
  let answered := (command.run machine.now).answerFrom queue machine.now
  have asked : command.store.SameCurrencies (command.run machine.now).store :=
    command.sameCurrencies_run machine.now
  have worked : (command.run machine.now).store.SameCurrencies answered.store :=
    (command.run machine.now).sameCurrencies_answerFrom machine.now queue
  have ran : answered.store.SameCurrencies (answered.run machine.now).store :=
    answered.sameCurrencies_run machine.now
  have ended := (answered.run machine.now).sameCurrencies_interrupt
  exact lived_withStore lived (((asked.trans worked).trans ran).trans ended)

theorem lived_beginReport (user : Int) (period : Period) (lived : machine.home.Lived) :
    (machine.beginReport configuration user period).2.home.Lived := by
  let command := machine.reportCommand configuration user period (machine.openQueue false)
  have ran : (machine.withStore (command.run machine.now).store).home.Lived :=
    lived_withStore lived (command.sameCurrencies_run machine.now)
  unfold beginReport
  dsimp only
  split
  · exact lived
  · split <;> exact ran

theorem lived_conclude (begun : Begun) (lived : machine.home.Lived) :
    (machine.conclude begun).2.home.Lived := by
  cases begun with
  | ended result => exact lived
  | waiting report =>
    let command := report.command.withStore machine.home.store
    have ran : machine.home.store.SameCurrencies (command.run machine.now).store :=
      command.sameCurrencies_run machine.now
    exact lived_withStore lived (ran.trans (command.run machine.now).sameCurrencies_interrupt)

theorem lived_init (existOk : Bool) (lived : machine.home.Lived) :
    (machine.init existOk).2.home.Lived := by
  obtain ⟨file, -, isFile, -⟩ := lived.intact.tables
  have same := Home.create_of_present lived.intact.present isFile {} machine.isInTime
  unfold init
  split
  · exact lived_load lived
  · show (machine.home.create {} machine.isInTime).2.Lived
    rw [same]
    exact lived

theorem lived_runWorker (duties : WorkerDuties) (lived : machine.home.Lived) :
    (machine.runWorker duties).2.home.Lived :=
  lived_loaded (fun _ _ lived => lived_work _ (lived_beginDuties duties lived)) lived

open BookCommand in
theorem lived_perform (command : Command) (lived : machine.home.Lived) :
    (machine.perform command).2.home.Lived := by
  have whose {user : Int} {command : Configuration → Machine → BookCommand}
      (changes : ∀ configuration machine, (command configuration machine).ChangesOnlyFor user 0) :
      (machine.loaded fun configuration machine =>
        machine.onBooks (command configuration machine)).2.home.Lived :=
    lived_loaded (keepsLived_onBooks changes) lived
  cases command with
  | init existOk => exact lived_init existOk lived
  | userAdd user => exact whose fun _ _ => changesOnlyFor_userAdd user 0 _
  | userReset user => exact whose fun _ _ => changesOnlyFor_userReset user 0
  | categoryAdd user name => exact whose fun _ _ => changesOnlyFor_categoryAdd user 0 name
  | expenseAdd user category amount date => exact whose fun _ _ => changesOnlyFor_expenseAdd 0 _ _
  | limitShow user => exact whose fun _ _ => changesOnlyFor_limitShow user 0
  | limitSet user amount => exact whose fun _ _ => changesOnlyFor_limitSet user 0 amount
  | limitReset user => exact whose fun _ _ => changesOnlyFor_limitReset user 0
  | limitResetAll => exact lived_loaded keepsLived_limitResetAll lived
  | currencyList => exact lived_loaded (fun _ _ lived => lived_withStore lived (.refl _)) lived
  | currencyRefresh => exact lived_loaded keepsLived_currencyRefresh lived
  | currencySet user code => exact whose fun _ _ => changesOnlyFor_currencySet user 0 code
  | report user period isLocal => exact lived_loaded (keepsLived_localReport user period) lived
  | worker refreshRates resetLimits => exact lived_runWorker _ lived

theorem lived_begin (command : Command) (lived : machine.home.Lived) :
    (machine.begin command).2.home.Lived := by
  have alone : (machine.withProcess.perform command).2.home.Lived := lived_perform command lived
  unfold begin
  dsimp only
  split
  · next user period =>
    have opened : machine.withProcess.load.2.home.Lived := lived_load lived
    split
    · next loaded =>
      rw [loaded] at opened
      exact lived_beginReport user period opened
    · next loaded =>
      rw [loaded] at opened
      exact opened
  · exact alone

/-- A process that is run by itself leaves a home that has lived, if it found such a home. -/
theorem lived_run (command : Command) (millis : Nat) (lived : machine.home.Lived) :
    (machine.run command millis).2.home.Lived :=
  lived_conclude _ (lived_begin command lived)

/-! ## A worker and what is run beside it -/

theorem lived_beginBeside (command : Option Command) (lived : machine.home.Lived) :
    (machine.beginBeside command).2.home.Lived := by
  cases command with
  | none => exact lived
  | some command => exact lived_begin command lived

theorem lived_concludeBeside (begun : Option Begun) (lived : machine.home.Lived) :
    (machine.concludeBeside begun).2.home.Lived := by
  cases begun with
  | none => exact lived
  | some begun => exact lived_conclude begun lived

theorem lived_workBeside (queue : QueueHandle) (begun : Option Begun)
    (lived : machine.home.Lived) :
    (machine.workBeside configuration queue begun).2.2.home.Lived := by
  unfold workBeside
  split
  · exact lived_workFor queue _ lived
  · exact lived_work queue lived

/-- A worker and the process beside it leave a home that has lived, if they found such a home. -/
theorem lived_runBeside (duties : WorkerDuties) (command : Option Command) (millis : Nat)
    (lived : machine.home.Lived) : (machine.runBeside duties command millis).2.2.home.Lived := by
  have opened : machine.withProcess.load.2.home.Lived := lived_load lived
  unfold runBeside
  split
  · next loaded =>
    rw [loaded] at opened
    exact lived_concludeBeside _ (lived_beginBeside command opened)
  · next configuration after loaded =>
    rw [loaded] at opened
    have working : (after.beginDuties configuration duties).home.Lived := lived_beginDuties duties opened
    have begun := lived_beginBeside command working
    exact lived_passDuties duties millis (lived_concludeBeside _ (lived_workBeside _ _ begun))

end Machine
end ExpenseLedger
