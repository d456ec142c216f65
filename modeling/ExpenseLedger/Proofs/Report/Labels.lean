import ExpenseLedger.Commands.SpendingReport
import ExpenseLedger.Proofs.Report.Sources
import ExpenseLedger.Proofs.Store.Frame

/-!
# The currency that a report names

A report is converted at a rate that some call has read early, is perhaps kept in the cache, and is
printed with the code of the currency that the user has by then. So what is printed are always the
totals in a currency that the user had when that call read it, and if the user has it when the
report is printed, it is the one that is named: `reports_priced_as_read`.

It may have changed by then. Changing the currency of a user drops the cached reports, but a call
that has read its rate before and ends after that puts one in at the old rate, and from then on it
is handed out under the new code: `lateChange_misnamed`.
-/

namespace ExpenseLedger

/-! ## What is printed -/

/-- The report as it is printed when the user is read from one state of the tables, and its currency
from another. -/
def SpendingReport.ofReads (users currencies : Store) (user : Int) (period : Period)
    (since : Instant) (report : Report) : Outcome SpendingReport := do
  let row ← users.user user
  let currency ← currencies.currency row.currency
  let total ← sum report
  .ok { user, period, since, currency := currency.code
        categories := report.entries.map fun (name, amount) => (name, ⟨amount⟩)
        total := ⟨total⟩ }

/-- What is printed of a call that has ended. -/
def ReportCall.printed (call : ReportCall) (period : Period) (users currencies : Store) :
    Outcome SpendingReport :=
  match call.result? with
  | none => .error .cancelled
  | some result => do
    let report ← result
    SpendingReport.ofReads users currencies call.user period call.since report

/-- A report command prints what it reads without anybody in between. -/
theorem ReportCommand.output_eq (command : ReportCommand) :
    command.output =
      (command.call.printed command.period command.store command.store).map
        SpendingReport.toOutput := by
  unfold output ReportCall.printed
  cases command.call.result? with
  | none => rfl
  | some result =>
    cases result with
    | error e => rfl
    | ok report =>
      show (SpendingReport.ofReads command.store command.store command.call.user command.period
        command.call.since report >>= fun spending => .ok spending.toOutput) = _
      cases made : SpendingReport.ofReads command.store command.store command.call.user
        command.period command.call.since report <;> simp only [bind, Except.bind, made] <;> rfl

theorem ReportCall.printed_eq_ok {call : ReportCall} {period : Period} {users currencies : Store}
    {spending : SpendingReport} (h : call.printed period users currencies = .ok spending) :
    ∃ report row currency total, call.stage = .finished (.ok report) ∧
      users.user? call.user = some row ∧ currencies.currency? row.currency = some currency ∧
      spending = { user := call.user, period, since := call.since, currency := currency.code
                   categories := report.entries.map fun (name, amount) => (name, ⟨amount⟩)
                   total := total } := by
  unfold printed at h
  split at h
  · cases h
  · next result ended =>
    obtain ⟨report, rfl, made⟩ := Outcome.bind_eq_ok.1 h
    obtain ⟨row, read, made⟩ := Outcome.bind_eq_ok.1 made
    obtain ⟨currency, named, made⟩ := Outcome.bind_eq_ok.1 made
    obtain ⟨total, -, made⟩ := Outcome.bind_eq_ok.1 made
    cases made
    refine ⟨report, row, currency, ⟨total⟩, ?_, (Store.user_eq_ok.1 read).2,
      (Store.currency_eq_ok.1 named).2, rfl⟩
    unfold result? at ended
    split at ended
    · next stage =>
      cases ended
      exact stage
    · cases ended

theorem exists_printed {world : ReportWorld} {caller : Nat} {period : Period}
    {spending : SpendingReport}
    (h : ((world.calls[caller]?).bind fun call =>
      (call.printed period world.store world.store).toOption) = some spending) :
    ∃ call, world.calls[caller]? = some call ∧
      call.printed period world.store world.store = .ok spending := by
  obtain ⟨call, found, printed⟩ := Option.bind_eq_some_iff.1 h
  refine ⟨call, found, ?_⟩
  cases outcome : call.printed period world.store world.store with
  | error e =>
    rw [outcome] at printed
    cases printed
  | ok other =>
    rw [outcome] at printed
    cases printed
    rfl

/-- The printed totals are those of the user's expenses in the window, each converted once at the
rate of a currency. -/
def SpendingReport.TotalsIn (spending : SpendingReport) (store : Store) (currency : Currency) :
    Prop :=
  ∃ rate ∈ (Rate.ofBinary64 currency.rate).toOption, ∀ entry ∈ spending.categories,
    Conversion.fromBase
      (store.amountsOf spending.user spending.since.seconds entry.1).sum rate = .ok entry.2.minor

instance (spending : SpendingReport) (store : Store) (currency : Currency) :
    Decidable (spending.TotalsIn store currency) :=
  inferInstanceAs (Decidable (∃ _ ∈ _, _))

/-! ## What a report names -/

/-- The printed totals of a report of the tables are in the currency of its rate. -/
theorem SpendingReport.totalsIn_of_isReport {spending : SpendingReport} {store : Store}
    {currency : Currency} {rate : Rate} {report : Report}
    (isReport : store.IsReport spending.user spending.since rate report)
    (rated : Rate.ofBinary64 currency.rate = .ok rate)
    (printed : spending.categories = report.entries.map fun (name, amount) => (name, ⟨amount⟩)) :
    spending.TotalsIn store currency := by
  refine ⟨rate, by rw [rated]; rfl, fun entry member => ?_⟩
  rw [printed] at member
  obtain ⟨⟨name, total⟩, inReport, rfl⟩ := List.mem_map.1 member
  have found := Report.get?_eq_some.2 inReport
  by_cases none : store.amountsOf spending.user spending.since.seconds name = []
  · rw [isReport.absent name none] at found
    cases found
  · obtain ⟨total', conversion, found'⟩ := isReport.present name none
    rw [found] at found'
    cases found'
    exact conversion

/-- The totals are in a currency that the user had when some call was about to read it, and are
those of the expenses while that call was waiting. -/
def SpendingReport.PricedIn (spending : SpendingReport) (worlds : List ReportWorld)
    (currency : Currency) : Prop :=
  ∃ maker, UserRead worlds maker spending.user currency.id ∧
    ∃ world ∈ worlds, (∃ stage, world.stage? maker = some stage ∧ stage.IsWaiting) ∧
      spending.TotalsIn world.store currency

/-- As long as no rate changes, whatever is printed of a report call has its totals in one currency,
the one that the call read by which the report was made. If the user has that currency still, or
again, when the report is printed, it is the one that is named. For printing, the user is read in
one world of the run and the code of its currency in another. -/
theorem reports_priced_as_read (settings : ReportSettings) (limit : Int) {desk : Desk}
    (noMessages : desk.books.store.messages = []) (noWaiters : desk.waiters = [])
    (noMail : desk.mail = []) (noReports : ∀ key report, ¬desk.books.Holds key report)
    {actions : List ReportAction} (distinct : (actions.filterMap ReportAction.newId?).Nodup) :
    let run := ReportRun.ofActions settings limit desk actions
    (∀ world ∈ run.worlds, world.store.currencies = desk.books.store.currencies) →
    ∀ reader ∈ run.worlds, ∀ later ∈ run.worlds, ∀ (caller : Nat) (call : ReportCall)
      (period : Period) (spending : SpendingReport), reader.calls[caller]? = some call →
      call.printed period reader.store later.store = .ok spending →
        ∃ currency ∈ desk.books.store.currencies, spending.PricedIn run.worlds currency ∧
          (reader.store.currencyOf? spending.user = some currency.id →
            spending.currency = currency.code) := by
  intro run fixed reader inReader later inLater caller call period spending found printed
  have sourced := Sourced.ofActions settings limit noMessages noWaiters noMail noReports distinct
  obtain ⟨report, row, named, total, stage, read, inTable, rfl⟩ := ReportCall.printed_eq_ok printed
  obtain ⟨maker, rate, rows, ⟨id, userRead, rater, inRater, -, rated⟩,
    ⟨world, member, waits, expenses⟩, sums⟩ :=
    sourced.returned reader inReader caller call report found stage
  have table (other : ReportWorld) (inRun : other ∈ run.worlds) (id : Int) :
      other.store.currency? id = desk.books.store.currency? id := by
    unfold Store.currency?
    rw [fixed other inRun]
  obtain ⟨currency, inRates, usable⟩ := Store.exists_row_of_rate rated
  rw [table rater inRater] at inRates
  obtain ⟨inCurrencies, sameId⟩ := Rows.get?_eq_some inRates
  have aggregated : Report.aggregate (world.store.expenseRows call.user call.since.seconds) rate =
      .ok report := by
    obtain ⟨-, -, expenses⟩ := Outcome.bind_eq_ok.1 expenses
    cases expenses
    exact sums
  refine ⟨currency, inCurrencies, ⟨maker, ?_, world, member, waits,
    SpendingReport.totalsIn_of_isReport (Store.isReport_of_aggregate aggregated) usable rfl⟩, ?_⟩
  · rw [sameId]
    exact userRead
  · intro unchanged
    unfold Store.currencyOf? at unchanged
    rw [read] at unchanged
    have same : row.currency = id := (Option.some.inj unchanged).trans sameId
    rw [same, table later inLater, inRates] at inTable
    rw [Option.some.inj inTable]

/-- A desk with two currencies, where two units of the other one make one of the reference
currency. -/
def twoCurrencies : Desk :=
  { books := { store := { currencies := [{ id := 0, code := "EUR", rate := Binary64.one },
      { id := 1, code := "USD", rate := Binary64.ofInt 2 }] }, cache := .shared } }

/-- A user comes and writes an expense. -/
def firstExpense : List ReportAction :=
  let request : ExpenseRequest :=
    { user := 1, category := "food", amount := ⟨60⟩, time := .epoch }
  [.ledger (.perform (.addUser 1)), .ledger (.perform (.addCategory 1 "food")),
    .ledger (.begin request .epoch)] ++ List.replicate 5 (.ledger (.proceed 0))

/-- The first call for a report of the user, until it waits. -/
def firstCall : List ReportAction :=
  .begin { value := 107 } 1 .epoch :: List.replicate 5 (.proceed 0 0)

/-- The user changes its currency. -/
def toDollars : ReportAction :=
  .ledger (.perform (.changeCurrency 1 "USD"))

/-- A worker answers the first call, which ends, and a second call asks for the same. -/
def answerAndAskAgain : List ReportAction :=
  [.claim { consumer := 2 } 1, .prepare 0, .deliver 0, .settle { consumer := 2 } 1] ++
    List.replicate 3 (.proceed 0 2) ++ [.begin { value := 108 } 1 .epoch, .proceed 1 3]

/-- The user changes its currency before it asks for a report. -/
def promptChange : List ReportAction :=
  firstExpense ++ [toDollars] ++ firstCall ++ answerAndAskAgain

/-- The user changes its currency while the first call waits. -/
def lateChange : List ReportAction :=
  firstExpense ++ firstCall ++ [toDollars] ++ answerAndAskAgain

/-- A report of the user that names dollars. -/
def dollarReport (amount : Int) : SpendingReport :=
  { user := 1, period := .all, since := .epoch, currency := "USD"
    categories := [("food", ⟨amount⟩)], total := ⟨amount⟩ }

theorem promptChange_priced_as_read :
    (promptChange.filterMap ReportAction.newId?).Nodup ∧
      (∀ key report, ¬twoCurrencies.books.Holds key report) ∧
      let run := ReportRun.ofActions sharedSettings 100 twoCurrencies promptChange
      (∀ world ∈ run.worlds, world.store.currencies = twoCurrencies.books.store.currencies) ∧
      run.world.store.currencyOf? 1 = some 1 ∧
      ∃ call, run.world.calls[1]? = some call ∧
        call.printed .all run.world.store run.world.store = .ok (dollarReport 120) ∧
        ∃ currency ∈ twoCurrencies.books.store.currencies,
          (dollarReport 120).PricedIn run.worlds currency ∧
          (run.world.store.currencyOf? 1 = some currency.id → currency.code = "USD") := by
  have distinct : (promptChange.filterMap ReportAction.newId?).Nodup := by decide
  have noReports : ∀ key report, ¬twoCurrencies.books.Holds key report := by
    rintro key report ⟨row, member, -⟩
    cases member
  refine ⟨distinct, noReports, ?_⟩
  intro run
  have fixed : ∀ world ∈ run.worlds,
      world.store.currencies = twoCurrencies.books.store.currencies := by decide +kernel
  obtain ⟨call, found, printed⟩ : ∃ call, run.world.calls[1]? = some call ∧
      call.printed .all run.world.store run.world.store = .ok (dollarReport 120) :=
    exists_printed (by decide +kernel)
  obtain ⟨currency, member, priced, named⟩ := reports_priced_as_read sharedSettings 100 rfl rfl rfl
    noReports distinct fixed run.world List.mem_cons_self run.world List.mem_cons_self 1 call .all
    (dollarReport 120) found printed
  exact ⟨fixed, by decide +kernel, call, found, printed, currency, member, priced,
    fun same => (named same).symm⟩

/-- A report may name a currency that its totals are not in, though no rate has ever changed: a call
that had read its rate cached it after the change of the currency had dropped what was cached. -/
theorem lateChange_misnamed :
    let run := ReportRun.ofActions sharedSettings 100 twoCurrencies lateChange
    (∀ world ∈ run.worlds, world.store.currencies = twoCurrencies.books.store.currencies) ∧
      (∃ call, run.world.calls[1]? = some call ∧
        call.printed .all run.world.store run.world.store = .ok (dollarReport 60)) ∧
      ∀ world ∈ run.worlds, ∀ currency ∈ world.store.currencies,
        currency.code = (dollarReport 60).currency →
          ¬(dollarReport 60).TotalsIn world.store currency :=
  ⟨by decide +kernel, exists_printed (by decide +kernel), by decide +kernel⟩

end ExpenseLedger
