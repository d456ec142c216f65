import ExpenseLedger.Proofs.Ledger.Acceptance
import ExpenseLedger.Proofs.Report.Effects
import ExpenseLedger.Proofs.Report.Interleaving

/-!
# Writing expenses among report calls

Books that begin regular stay so, whatever writers, report calls and workers do to them. So wherever
a run has come to, an expense is written exactly as agreed.
-/

namespace ExpenseLedger

/-- A report call keeps what it caches under the key of its user. -/
theorem Books.Regular.called {books after : Books} (regular : books.Regular)
    {settings : ReportSettings} {now : Int} {call : ReportCall}
    (touches : call.Touches settings now books after) : after.Regular := by
  cases touches with
  | nothing => exact regular
  | queued rate stage messages nextMessage => exact regular.of_same rfl rfl rfl
  | looked stage result _ found =>
    exact regular.of_cache (congrArg Store.users (cachedReport_store found))
      (regular.ordered.cachedReport found)
      fun entry member => Or.inl (cachedReport_addsNoEntry found member)
  | kept report stage _ stored =>
    obtain ⟨cachedReports, store⟩ := cacheReport_store stored
    have users : after.store.users = books.store.users := by rw [store]
    refine regular.of_cache users (regular.ordered.cacheReport stored) fun entry member => ?_
    rcases mem_of_cacheReport stored member with old | ⟨key, -⟩
    · exact Or.inl old
    · exact Or.inr ⟨call.user, call.since, key⟩

theorem ReportWorld.step_regular {settings : ReportSettings} {limit : Int} (fits : FitsInt64 limit)
    {world : ReportWorld} (regular : world.desk.books.Regular) (action : ReportAction) :
    (world.step settings limit action).desk.books.Regular := by
  have touches := world.step_touches settings limit action
  generalize (world.step settings limit action).desk.books = after at touches
  cases touches with
  | nothing _ => exact regular
  | queued _ messages nextMessage => exact regular.of_same rfl rfl rfl
  | ledger action => exact LedgerRun.step_regular fits regular action
  | called caller now call found _ touches => exact regular.called touches

theorem ReportRun.regular_ofActions (settings : ReportSettings) {limit : Int}
    (fits : FitsInt64 limit) {desk : Desk} (regular : desk.books.Regular)
    (actions : List ReportAction) :
    (ReportRun.ofActions settings limit desk actions).world.desk.books.Regular := by
  induction actions using List.reverseRecOn with
  | nil => exact regular
  | append_singleton actions action ih =>
    unfold ofActions at ih ⊢
    rw [List.foldl_append]
    exact ReportWorld.step_regular fits ih action

/-- In every state that writers, report calls and workers can bring about, an expense is written
exactly if it is priced and covered by the limit of its month; that adds one row, charges its user
and drops the user's reports, and nothing else; and whatever fails changes nothing. -/
theorem expenses_written_exactly (settings : ReportSettings) {limit : Int} (fits : FitsInt64 limit)
    {desk : Desk} (regular : desk.books.Regular) (actions : List ReportAction)
    (request : ExpenseRequest) (now : Instant) :
    (ReportRun.ofActions settings limit desk actions).world.desk.books.WritesExactly request now :=
  (ReportRun.regular_ofActions settings fits regular actions).writesExactly request now

/-- A user with a limit of a hundred has written sixty and been given a report of it. Forty more can
be written, and then the report is gone, but no more than forty, unless it is for another month. -/
theorem expenses_written_exactly_oneReport :
    FitsInt64 100 ∧ newDesk.books.Regular ∧
      let books := (ReportRun.ofActions sharedSettings 100 newDesk oneReport).world.desk.books
      let request (minor : Int) (time : Instant) : ExpenseRequest :=
        { user := 1, category := " food ", amount := ⟨minor⟩, time }
      books.Available ∧
      books.WritesExactly (request 40 ⟨-1, 999⟩) .epoch ∧
      books.entries.length = 1 ∧
      ((books.writeExpense (request 40 .epoch) .epoch).toOption.map Books.entries).map
        List.length = some 0 ∧
      books.writeExpense (request 41 ⟨0, 1500000000⟩) .epoch = .error .limitExceeded ∧
      (books.writeExpense (request 41 ⟨-1, 999⟩) .epoch).toOption.isSome = true := by
  have fits : FitsInt64 100 := by decide
  have regular : newDesk.books.Regular := ⟨List.Pairwise.nil, nofun, nofun, nofun⟩
  refine ⟨fits, regular, ⟨by decide +kernel, by decide +kernel⟩,
    expenses_written_exactly sharedSettings fits regular oneReport _ .epoch, ?_, ?_, ?_, ?_⟩
  · decide +kernel
  · decide +kernel
  · decide +kernel
  · decide +kernel

end ExpenseLedger
