import ExpenseLedger.Calendar.Timestamp
import ExpenseLedger.Proofs.Calendar.Period
import ExpenseLedger.Proofs.Ledger.Recording
import ExpenseLedger.Proofs.Report.Grouping

/-!
# What the longest report covers

A window has a start, and whatever a user has written that is dated before it is not read. The
longest window starts with 1970, but an expense can be dated earlier. So a report over all time
covers the expenses that are dated in 1970 or later, and is complete exactly if there are no others
(`all_time_from_1970`).
-/

namespace ExpenseLedger

/-! ## The rows of the table -/

/-- What a row of the table and the row that is made of it have in common. -/
def Expense.figures (expense : Expense) : Int × Int × Int :=
  (expense.category, expense.time, expense.amount)

def ExpenseRow.figures (row : ExpenseRow) : Int × Int × Int :=
  (row.categoryId, row.time, row.amount)

namespace Store

variable {store : Store}

theorem figures_expenseRow? {expense : Expense} {row : ExpenseRow}
    (made : store.expenseRow? expense = some row) : row.figures = expense.figures := by
  obtain ⟨category, -, rfl⟩ := Option.map_eq_some_iff.1 made
  rfl

/-- Where each expense has its category, each makes a row. -/
theorem map_figures_filterMap {expenses : List Expense}
    (made : ∀ expense ∈ expenses, ∃ row, store.expenseRow? expense = some row) :
    (expenses.filterMap store.expenseRow?).map ExpenseRow.figures =
      expenses.map Expense.figures := by
  induction expenses with
  | nil => rfl
  | cons expense expenses ih =>
    obtain ⟨⟨row, found⟩, rest⟩ := List.forall_mem_cons.1 made
    rw [List.filterMap_cons_some found, List.map_cons, List.map_cons, ih rest,
      figures_expenseRow? found]

theorem Sound.exists_expenseRow? (sound : store.Sound) {expense : Expense}
    (member : expense ∈ store.expenses) : ∃ row, store.expenseRow? expense = some row := by
  obtain ⟨category, inTable, id, -⟩ := sound.filed expense member
  have found : store.category? expense.category = some category :=
    id ▸ sound.ascending.get?_of_mem inTable
  exact ⟨_, congrArg (Option.map _) found⟩

/-- What is read are the rows that the table has of the user from a second on. -/
theorem Sound.map_figures_expenseRows (sound : store.Sound) (user since : Int) :
    ((store.expenseRows user since).map ExpenseRow.figures).Perm
      ((store.expenses.filter fun expense => expense.user = user ∧ since ≤ expense.time).map
        Expense.figures) := by
  have sorted := List.mergeSort_perm
    (store.expenses.filter fun expense => expense.user = user ∧ since ≤ expense.time)
    fun a b => decide (a.time ≤ b.time)
  unfold expenseRows
  rw [map_figures_filterMap fun expense member =>
    sound.exists_expenseRow? (List.mem_filter.1 (sorted.mem_iff.1 member)).1]
  exact sorted.map Expense.figures

end Store

/-! ## A window -/

/-- The amounts of the entries of a category from a second on. -/
def Entry.amountsSince (since : Int) (entries : List Entry) (name : String) : List Int :=
  (entries.filter fun entry => since ≤ entry.time ∧ entry.name = name).map Entry.amount

theorem Entry.amountsSince_ne_nil {since : Int} {entries : List Entry} {name : String} :
    amountsSince since entries name ≠ [] ↔
      ∃ entry ∈ entries, since ≤ entry.time ∧ entry.name = name := by
  unfold amountsSince
  rw [Ne, List.map_eq_nil_iff, List.filter_eq_nil_iff]
  simp

/-- The rows are of the entries from a second on. -/
theorem amountsOf_perm_amountsSince {since : Int} {rows : List ExpenseRow} {entries : List Entry}
    (perm : (rows.map ExpenseRow.entry).Perm (entries.filter fun entry => since ≤ entry.time))
    (name : String) : (Report.amountsOf rows name).Perm (Entry.amountsSince since entries name) := by
  have amounts : Report.amountsOf rows name =
      ((rows.map ExpenseRow.entry).filter fun entry => entry.name = name).map Entry.amount := by
    unfold Report.amountsOf
    rw [List.filter_map, List.map_map]
    rfl
  rw [amounts]
  refine ((perm.filter _).map Entry.amount).trans (List.Perm.of_eq ?_)
  unfold Entry.amountsSince
  rw [List.filter_filter]
  simp only [Bool.decide_and, Bool.and_comm]

namespace Books

/-- What a report of a user covers whose window starts at an instant: of the entries of all that the user
has booked, those that are not dated before the window. -/
structure Covers (books : Books) (user : Int) (since : Instant) (entries : List Entry)
    (rows : List ExpenseRow) : Prop where
  read : books.readExpenses user since = .ok rows
  covered : (rows.map ExpenseRow.entry).Perm
    (entries.filter fun entry => since.seconds ≤ entry.time)
  complete_iff : (rows.map ExpenseRow.entry).Perm entries ↔
    ∀ entry ∈ entries, since.seconds ≤ entry.time
  inTable : (rows.map ExpenseRow.figures).Perm
    ((books.store.expenses.filter fun expense =>
      expense.user = user ∧ since.seconds ≤ expense.time).map Expense.figures)
  aggregated : ∀ rate, books.store.rateOf user = .ok rate →
    books.store.reportOf user since = Report.aggregate rows rate
  grouped : ∀ rate report, Report.aggregate rows rate = .ok report → ∀ name total,
    (name, total) ∈ report.entries ↔
      (∃ entry ∈ entries, since.seconds ≤ entry.time ∧ entry.name = name) ∧
        Conversion.fromBase (Entry.amountsSince since.seconds entries name).sum rate = .ok total

variable {books : Books}

theorem covers (reached : books.store.outOfReach = []) (sound : books.store.Sound) (user : Int)
    (since : Instant) :
    books.Covers user since ((books.store.bookedRows user).map ExpenseRow.entry)
      (books.store.expenseRows user since.seconds) := by
  have inOrder : InOrder Entry.time since.seconds
      ((books.store.bookedRows user).map ExpenseRow.entry)
      ((books.store.expenseRows user since.seconds).map ExpenseRow.entry) :=
    (books.store.expenseRows_inOrder user since.seconds).map fun _ => rfl
  constructor
  case read =>
    unfold readExpenses Store.expensesSince
    rw [Store.reach_of_outOfReach reached]
    rfl
  case covered => exact inOrder.complete
  case complete_iff =>
    constructor
    · intro all entry member
      exact inOrder.since_le (all.mem_iff.2 member)
    · intro late
      have all := inOrder.complete
      rwa [List.filter_eq_self.2 fun entry member => decide_eq_true (late entry member)] at all
  case inTable => exact sound.map_figures_expenseRows user since.seconds
  case aggregated =>
    intro rate rated
    exact Store.reportOf_of_rated rated (Store.reaches_of_outOfReach reached _)
  case grouped =>
    intro rate report h name total
    have amounts := amountsOf_perm_amountsSince inOrder.complete name
    rw [(Report.groups_of_aggregate h).mem_entries_iff, ← Report.amountsOf_ne_nil,
      ← Entry.amountsSince_ne_nil, amounts.sum_eq]
    refine and_congr_left fun _ => not_congr ⟨fun none => ?_, fun none => ?_⟩
    · exact (none ▸ amounts).symm.eq_nil
    · exact (none ▸ amounts).eq_nil

end Books

/-- The window of a report over all time starts with 1970. However operations and the steps of writing
calls have interleaved, the report covers what the user has booked since it was last erased and is dated
then or later, and that is all of it exactly if nothing is dated earlier. -/
theorem all_time_from_1970 (limit : Int) {start : Books}
    (noCategories : start.store.categories = []) (noExpenses : start.store.expenses = [])
    (actions : List LedgerAction) (user : Int) (now : Instant) :
    ∃ since, Period.all.windowStart? now = some since ∧
      since = .midnight { year := 1970, month := 1, day := 1 } ∧
      let run := LedgerRun.ofActions limit start actions
      run.books.store.outOfReach = [] → ∃ entries rows,
        List.Forall₂ (Recording.Tells user run)
          (Recording.ofActions limit user start actions).booked entries ∧
        run.books.Covers user since entries rows := by
  have kept := Recording.kept_ofActions limit user noCategories noExpenses actions
  refine ⟨.epoch, rfl, Instant.midnight_epoch.symm, fun reached => ?_⟩
  have sound := kept.sound
  have told := kept.told
  rw [Recording.run_ofActions] at sound told
  exact ⟨_, _, told, Books.covers reached sound user .epoch⟩

/-- Somebody who is erased and comes back writes three expenses at once, one of them of 1969. -/
def threeWriters : List LedgerAction :=
  let write (amount : Int) (time : Instant) : LedgerAction :=
    .begin { user := 1, category := " food", amount := ⟨amount⟩, time } ⟨9000000, 0⟩
  [.perform (.addUser 1), .perform (.addCategory 1 "food"), write 90 ⟨7, 0⟩] ++
    List.replicate 5 (.proceed 0) ++ [.perform (.resetUser 1)] ++
    [.perform (.addUser 1), .perform (.addCategory 1 "food"), write 500 ⟨7, 900⟩,
      write 500 ⟨-1, 5⟩, write 400 ⟨7, 100⟩] ++
    (List.replicate 5 [.proceed 3, .proceed 2, .proceed 1]).flatten

/-- Of the three expenses, the two that are not dated before 1970 are covered. -/
theorem all_time_from_1970_threeWriters :
    newBooks.store.categories = [] ∧ newBooks.store.expenses = [] ∧
      ∃ since, Period.all.windowStart? ⟨9000000, 0⟩ = some since ∧
        since = .midnight { year := 1970, month := 1, day := 1 } ∧
        let run := LedgerRun.ofActions 100 newBooks threeWriters
        run.books.store.outOfReach = [] ∧ ∃ entries rows,
          List.Forall₂ (Recording.Tells 1 run)
            (Recording.ofActions 100 1 newBooks threeWriters).booked entries ∧
          run.books.Covers 1 since entries rows ∧ entries.length = 3 ∧ rows.length = 2 := by
  refine ⟨rfl, rfl, ?_⟩
  obtain ⟨since, start, midnight, covers⟩ :=
    @all_time_from_1970 100 newBooks rfl rfl threeWriters 1 ⟨9000000, 0⟩
  have reached : (LedgerRun.ofActions 100 newBooks threeWriters).books.store.outOfReach = [] := by
    decide +kernel
  obtain ⟨entries, rows, told, covers⟩ := covers reached
  refine ⟨since, start, midnight, reached, entries, rows, told, covers, ?_, ?_⟩
  · exact told.length_eq.symm.trans (by decide +kernel)
  · obtain rfl := Option.some.inj start
    have count := covers.inTable.length_eq
    rw [List.length_map, List.length_map] at count
    exact count.trans (by decide +kernel)

/-- An expense of the last day of 1969. -/
def writtenBefore1970 : List LedgerAction :=
  [.perform (.addUser 1), .perform (.addCategory 1 "food"),
    .begin { user := 1, category := "food", amount := ⟨500⟩, time := ⟨-86400, 0⟩ }
      ⟨1760529600, 0⟩] ++ List.replicate 5 (.proceed 0)

/-- The date can be given to the expense, and the expense is written, but no report over all time
has it. -/
theorem all_time_without_1969 :
    let run := LedgerRun.ofActions 1000000 newBooks writtenBefore1970
    (Timestamp.read "1969-12-31").toOption = some ⟨-86400, 0⟩ ∧
      (Recording.ofActions 1000000 1 newBooks writtenBefore1970).booked =
        [(0, ⟨1, 1, 1, -86400, 500⟩)] ∧
      run.books.store.expenses = [⟨1, 1, 1, -86400, 500⟩] ∧
      ∃ since, Period.all.windowStart? ⟨1760529600, 0⟩ = some since ∧
        run.books.readExpenses 1 since = .ok [] ∧
        run.books.store.reportOf 1 since = .ok .empty := by
  intro run
  have expenses : run.books.store.expenses = [⟨1, 1, 1, -86400, 500⟩] := by decide +kernel
  have rated : run.books.store.rateOf 1 = .ok .one := by decide +kernel
  have reached : run.books.store.outOfReach = [] := by decide +kernel
  have kept := Recording.kept_ofActions 1000000 1 (rfl : newBooks.store.categories = []) rfl
    writtenBefore1970
  have sound := kept.sound
  rw [Recording.run_ofActions] at sound
  have covers := Books.covers reached sound 1 .epoch
  have none : run.books.store.expenseRows 1 Instant.epoch.seconds = [] := by
    have figures := covers.inTable
    rw [expenses] at figures
    exact List.map_eq_nil_iff.1 figures.eq_nil
  refine ⟨by decide +kernel, by decide +kernel, expenses, .epoch, rfl, ?_, ?_⟩
  · exact covers.read.trans (congrArg Except.ok none)
  · exact (covers.aggregated .one rated).trans (congrArg (Report.aggregate · .one) none)

end ExpenseLedger
