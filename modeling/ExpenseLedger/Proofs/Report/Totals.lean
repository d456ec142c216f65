import ExpenseLedger.Proofs.Json.Codec
import ExpenseLedger.Proofs.Ledger.Run
import ExpenseLedger.Report.Aggregate
import Mathlib.Algebra.BigOperators.Group.List.Basic
import Mathlib.Algebra.Order.Ring.Int

/-!
# What reports say

`Store.IsReport` is what a report should be, said of the tables alone: for each category name the
sum of the expenses, converted, and nothing where there are none. Aggregation yields just that,
in whatever order it goes through the expenses.
-/

namespace ExpenseLedger

namespace Report

variable {rows : List ExpenseRow} {sums report : Report} {rate : Rate}

/-- The amounts of the rows of a category. -/
def amountsOf (rows : List ExpenseRow) (name : String) : List Int :=
  (rows.filter fun row => row.categoryName = name).map ExpenseRow.amount

theorem addRow_eq_ok {row : ExpenseRow} (h : addRow report row = .ok sums) :
    sums = report.insert row.categoryName
      ((report.get? row.categoryName).getD 0 + row.amount) := by
  unfold addRow at h
  simp only at h
  split at h
  · cases h
    rfl
  · cases h

/-- The sum of a name goes on from what it was by the rows of the name. -/
theorem get?_foldlM (h : rows.foldlM addRow report = .ok sums) (name : String) :
    sums.get? name = if amountsOf rows name = [] then report.get? name
      else some ((report.get? name).getD 0 + (amountsOf rows name).sum) := by
  induction rows generalizing report with
  | nil =>
    cases h
    rfl
  | cons row rows ih =>
    rw [List.foldlM_cons] at h
    obtain ⟨middle, added, h⟩ := Outcome.bind_eq_ok.1 h
    have middle_eq := addRow_eq_ok added
    have tail := ih h
    rw [middle_eq, get?_insert] at tail
    by_cases same : row.categoryName = name
    · have amounts : amountsOf (row :: rows) name = row.amount :: amountsOf rows name := by
        simp [amountsOf, same]
      rw [tail, amounts, if_pos same, if_neg (List.cons_ne_nil _ _), List.sum_cons, same]
      split
      · next none => simp [none]
      · simp [add_assoc]
    · have amounts : amountsOf (row :: rows) name = amountsOf rows name := by
        simp [amountsOf, same]
      rw [tail, amounts, if_neg same]

theorem get?_totals (h : totals rows = .ok sums) (name : String) :
    sums.get? name =
      if amountsOf rows name = [] then none else some (amountsOf rows name).sum := by
  have sum := get?_foldlM h name
  rwa [get?_empty, Option.getD_none, zero_add] at sum

/-- The second entry is the first one in the display currency. -/
structure Converts (rate : Rate) (entry converted : String × Int) : Prop where
  name : converted.1 = entry.1
  total : Conversion.fromBase entry.2 rate = .ok converted.2
  fits : FitsInt64 converted.2

theorem convertEntry_eq_ok {entry converted : String × Int}
    (h : convertEntry rate entry = .ok converted) : Converts rate entry converted := by
  obtain ⟨total, conversion, h⟩ := Outcome.bind_eq_ok.1 h
  cases h
  refine ⟨rfl, ?_, Writing.settle_fits conversion⟩
  cases result : Conversion.fromBase entry.2 rate with
  | error e =>
    rw [result] at conversion
    cases conversion
  | ok total' =>
    rw [result] at conversion
    cases conversion
    rfl

theorem forall₂_of_mapM {entries converted : List (String × Int)}
    (h : entries.mapM (convertEntry rate) = .ok converted) :
    List.Forall₂ (Converts rate) entries converted := by
  induction entries generalizing converted with
  | nil =>
    cases h
    exact .nil
  | cons entry entries ih =>
    rw [List.mapM_cons] at h
    obtain ⟨head, first, h⟩ := Outcome.bind_eq_ok.1 h
    obtain ⟨tail, rest, h⟩ := Outcome.bind_eq_ok.1 h
    cases h
    exact .cons (convertEntry_eq_ok first) (ih rest)

section Converted

variable {entries converted : List (String × Int)}

theorem map_fst_of_forall₂ (h : List.Forall₂ (Converts rate) entries converted) :
    converted.map Prod.fst = entries.map Prod.fst := by
  induction h with
  | nil => rfl
  | cons head _ ih => rw [List.map_cons, List.map_cons, ih, head.name]

theorem ascending_of_forall₂ (h : List.Forall₂ (Converts rate) entries converted)
    (ascending : Rows.Ascending Prod.fst entries) : Rows.Ascending Prod.fst converted := by
  unfold Rows.Ascending at ascending ⊢
  rw [← List.pairwise_map (f := Prod.fst) (R := (· < ·))] at ascending ⊢
  rwa [map_fst_of_forall₂ h]

theorem exists_converts_of_mem (h : List.Forall₂ (Converts rate) entries converted)
    {entry : String × Int} (member : entry ∈ entries) :
    ∃ other ∈ converted, Converts rate entry other := by
  induction h with
  | nil => cases member
  | @cons _ other _ _ head _ ih =>
    rcases List.mem_cons.1 member with rfl | inTail
    · exact ⟨other, List.mem_cons_self, head⟩
    · obtain ⟨other, inTail, converts⟩ := ih inTail
      exact ⟨other, List.mem_cons_of_mem _ inTail, converts⟩

theorem exists_mem_of_converts (h : List.Forall₂ (Converts rate) entries converted)
    {other : String × Int} (member : other ∈ converted) :
    ∃ entry ∈ entries, Converts rate entry other := by
  induction h with
  | nil => cases member
  | @cons entry _ _ _ head _ ih =>
    rcases List.mem_cons.1 member with rfl | inTail
    · exact ⟨entry, List.mem_cons_self, head⟩
    · obtain ⟨entry, inTail, converts⟩ := ih inTail
      exact ⟨entry, List.mem_cons_of_mem _ inTail, converts⟩

end Converted

/-- The entries of an aggregated report are those of the sums, converted. -/
theorem aggregate_eq_ok (h : aggregate rows rate = .ok report) :
    ∃ sums, totals rows = .ok sums ∧
      List.Forall₂ (Converts rate) sums.entries report.entries := by
  obtain ⟨sums, summed, h⟩ := Outcome.bind_eq_ok.1 h
  obtain ⟨converted, conversion, h⟩ := Outcome.bind_eq_ok.1 h
  cases h
  have pairs := forall₂_of_mapM conversion
  refine ⟨sums, summed, ?_⟩
  rw [entries_ofList (ascending_of_forall₂ pairs sums.ascending)]
  exact pairs

theorem fits_of_aggregate (h : aggregate rows rate = .ok report) : report.Fits := by
  obtain ⟨sums, -, pairs⟩ := aggregate_eq_ok h
  intro converted member
  obtain ⟨entry, -, converts⟩ := exists_mem_of_converts pairs member
  exact converts.fits

/-- A category without rows is not in the report. -/
theorem get?_aggregate_of_none (h : aggregate rows rate = .ok report) {name : String}
    (none : amountsOf rows name = []) : report.get? name = .none := by
  obtain ⟨sums, summed, pairs⟩ := aggregate_eq_ok h
  have noSum := get?_totals summed name
  rw [if_pos none] at noSum
  cases found : report.get? name with
  | none => rfl
  | some total =>
    obtain ⟨⟨name', sum⟩, member, converts⟩ := exists_mem_of_converts pairs (get?_eq_some.1 found)
    obtain rfl : name = name' := converts.name
    rw [get?_eq_some.2 member] at noSum
    cases noSum

/-- A category with rows has their sum, converted once. -/
theorem get?_aggregate_of_some (h : aggregate rows rate = .ok report) {name : String}
    (some : amountsOf rows name ≠ []) :
    ∃ total, Conversion.fromBase (amountsOf rows name).sum rate = .ok total ∧
      report.get? name = .some total := by
  obtain ⟨sums, summed, pairs⟩ := aggregate_eq_ok h
  have sum := get?_totals summed name
  rw [if_neg some] at sum
  obtain ⟨⟨name', total⟩, member, converts⟩ := exists_converts_of_mem pairs (get?_eq_some.1 sum)
  obtain rfl : name' = name := converts.name
  exact ⟨total, converts.total, get?_eq_some.2 member⟩

end Report

namespace Store

variable {store : Store} {user : Int} {since : Instant} {rate : Rate} {report other : Report}

/-- The name of a category. -/
def categoryName? (store : Store) (id : Int) : Option String :=
  (store.category? id).map Category.name

/-- The amounts of the expenses of a user since a second under the name of a category. -/
def amountsOf (store : Store) (user since : Int) (name : String) : List Int :=
  (store.expenses.filter fun expense => expense.user = user ∧ since ≤ expense.time ∧
    store.categoryName? expense.category = some name).map Expense.amount

/-- The report is that of a user since an instant, at a rate: a category with expenses has their
sum, converted once, and one without expenses is absent. Times are kept in whole seconds. -/
structure IsReport (store : Store) (user : Int) (since : Instant) (rate : Rate)
    (report : Report) : Prop where
  absent : ∀ name, store.amountsOf user since.seconds name = [] → report.get? name = none
  present : ∀ name, store.amountsOf user since.seconds name ≠ [] →
    ∃ total, Conversion.fromBase (store.amountsOf user since.seconds name).sum rate = .ok total ∧
      report.get? name = some total

theorem amountsOf_filterMap_expenseRow? (store : Store) (expenses : List Expense) (name : String) :
    Report.amountsOf (expenses.filterMap store.expenseRow?) name =
      (expenses.filter fun expense => store.categoryName? expense.category = some name).map
        Expense.amount := by
  induction expenses with
  | nil => rfl
  | cons expense expenses ih =>
    unfold Report.amountsOf at ih ⊢
    cases found : store.category? expense.category with
    | none =>
      have noRow : store.expenseRow? expense = none := by simp [expenseRow?, found]
      have noName : store.categoryName? expense.category = none := by simp [categoryName?, found]
      rw [List.filterMap_cons_none noRow, ih, List.filter_cons_of_neg (by simp [noName])]
    | some category =>
      have row : store.expenseRow? expense = some
          { categoryId := expense.category, categoryName := category.name
            time := expense.time, amount := expense.amount } := by simp [expenseRow?, found]
      have named : store.categoryName? expense.category = some category.name := by
        simp [categoryName?, found]
      rw [List.filterMap_cons_some row]
      by_cases same : category.name = name
      · rw [List.filter_cons_of_pos (by simp [same]), List.filter_cons_of_pos (by simp [named, same]),
          List.map_cons, List.map_cons, ih]
      · rw [List.filter_cons_of_neg (by simp [same]), List.filter_cons_of_neg (by simp [named, same]),
          ih]

/-- The rows that a worker reads have the amounts of the expenses, in some order. -/
theorem amountsOf_expenseRows (store : Store) (user since : Int) (name : String) :
    (Report.amountsOf (store.expenseRows user since) name).Perm
      (store.amountsOf user since name) := by
  have sorted := List.mergeSort_perm
    (store.expenses.filter fun expense => expense.user = user ∧ since ≤ expense.time)
    fun a b => decide (a.time ≤ b.time)
  have rows := ((sorted.filterMap store.expenseRow?).filter
    fun row => row.categoryName = name).map ExpenseRow.amount
  refine rows.trans (List.Perm.of_eq ?_)
  have amounts := amountsOf_filterMap_expenseRow? store
    (store.expenses.filter fun expense => expense.user = user ∧ since ≤ expense.time) name
  unfold Report.amountsOf at amounts
  rw [amounts, List.filter_filter]
  unfold Store.amountsOf
  congr 1
  apply List.filter_congr
  intro expense _
  simp only [Bool.decide_and]
  rw [Bool.and_comm, Bool.and_assoc]

/-- What is aggregated from the rows of the tables is the report of the tables. -/
theorem isReport_of_aggregate
    (h : Report.aggregate (store.expenseRows user since.seconds) rate = .ok report) :
    store.IsReport user since rate report where
  absent := by
    intro name none
    have perm := store.amountsOf_expenseRows user since.seconds name
    rw [none] at perm
    exact Report.get?_aggregate_of_none h perm.eq_nil
  present := by
    intro name some
    have perm := store.amountsOf_expenseRows user since.seconds name
    have rows : Report.amountsOf (store.expenseRows user since.seconds) name ≠ [] := by
      intro none
      rw [none] at perm
      exact some perm.symm.eq_nil
    rw [← perm.sum_eq]
    exact Report.get?_aggregate_of_some h rows

/-- The report of a user, read and aggregated from the tables at once. -/
def reportOf (store : Store) (user : Int) (since : Instant) : Outcome Report := do
  let row ← store.user user
  let rate ← store.rate row.currency
  let rows ← store.expensesSince user since
  Report.aggregate rows rate

theorem reportOf_eq {row : User} (read : store.user user = .ok row)
    (rated : store.rate row.currency = .ok rate)
    (reached : store.reaches [.expenses, .categories] = true) :
    store.reportOf user since = Report.aggregate (store.expenseRows user since.seconds) rate := by
  have reach : store.reach .queryExpenses [.expenses, .categories] = .ok () :=
    reach_eq_ok.2 reached
  unfold reportOf expensesSince
  simp only [read, rated, reach, bind, Except.bind]

/-- The rate at which reports of a user are made. -/
def rateOf (store : Store) (user : Int) : Outcome Rate := do
  let row ← store.user user
  store.rate row.currency

theorem reportOf_of_unrated {e : Error} (unrated : store.rateOf user = .error e) :
    store.reportOf user since = .error e := by
  have first : store.reportOf user since = store.rateOf user >>= fun rate =>
      store.expensesSince user since >>= fun rows => Report.aggregate rows rate := by
    simp only [reportOf, rateOf, bind_assoc]
  rw [first, unrated]
  rfl

theorem reportOf_of_rated (rated : store.rateOf user = .ok rate)
    (reached : store.reaches [.expenses, .categories] = true) :
    store.reportOf user since = Report.aggregate (store.expenseRows user since.seconds) rate := by
  obtain ⟨row, read, rated⟩ := Outcome.bind_eq_ok.1 rated
  exact reportOf_eq read rated reached

theorem reportOf_eq_ok (h : store.reportOf user since = .ok report) :
    ∃ row rate, store.user? user = some row ∧ store.rate row.currency = .ok rate ∧
      Report.aggregate (store.expenseRows user since.seconds) rate = .ok report := by
  obtain ⟨row, read, h⟩ := Outcome.bind_eq_ok.1 h
  obtain ⟨rate, rated, h⟩ := Outcome.bind_eq_ok.1 h
  obtain ⟨rows, expenses, h⟩ := Outcome.bind_eq_ok.1 h
  obtain ⟨-, -, expenses⟩ := Outcome.bind_eq_ok.1 expenses
  cases expenses
  exact ⟨row, rate, (user_eq_ok.1 read).2, rated, h⟩

end Store
end ExpenseLedger
