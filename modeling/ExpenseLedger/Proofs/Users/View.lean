import ExpenseLedger.Proofs.Cache
import ExpenseLedger.Proofs.Report.Totals
import ExpenseLedger.Proofs.Store.Frame

/-!
# What a user sees of the tables

All users share the tables. `Store.viewOf` is what belongs to one of them, but for the numbers of
rows: its row, the names of its categories, its expenses in the order in which they were booked,
and its cached reports that are still of use. Here is what each change of the tables does to the
view of the user whom it is about, and that it leaves the views of all others alone; and all that
is read for a user is read off its view.
-/

namespace ExpenseLedger

/-- An expense as its user sees it. -/
structure SeenExpense where
  category : Option String
  time : Int
  amount : Int
  deriving DecidableEq

/-- A row that is read back, without the number of its category. -/
def ExpenseRow.seen (row : ExpenseRow) : SeenExpense :=
  { category := some row.categoryName, time := row.time, amount := row.amount }

/-- What a user has in the tables. -/
structure UserView where
  user : Option User
  categories : List String
  expenses : List SeenExpense
  reports : List CachedReport
  deriving DecidableEq

namespace Store

/-- An expense without the numbers of its row and of its category. -/
def seen (store : Store) (expense : Expense) : SeenExpense :=
  { category := store.categoryName? expense.category, time := expense.time
    amount := expense.amount }

/-- The row is a report of a user that is of use at a time. -/
def isLiveFor (user now : Int) (row : CachedReport) : Bool :=
  CacheKey.inRangeOf user row.key && decide (now < row.expiresAt)

/-- What a user sees at a time. -/
def viewOf (store : Store) (user now : Int) : UserView where
  user := store.user? user
  categories := (store.categories.filter fun row => row.user = user).map Category.name
  expenses := (store.expenses.filter fun row => row.user = user).map store.seen
  reports := store.cachedReports.filter (isLiveFor user now)

variable {store after : Store} {user now : Int}

/-- The names under which expenses are seen depend on their categories alone. -/
theorem map_seen_congr {expenses : List Expense}
    (named : ∀ expense ∈ expenses,
      after.category? expense.category = store.category? expense.category) :
    expenses.map after.seen = expenses.map store.seen := by
  refine List.map_congr_left fun expense member => ?_
  unfold seen categoryName?
  rw [named expense member]

/-- As time goes by, reports go out of use. -/
theorem viewOf_of_le {later : Int} (h : now ≤ later) :
    store.viewOf user later =
      { store.viewOf user now with
        reports := (store.viewOf user now).reports.filter fun row => later < row.expiresAt } := by
  have reports : store.cachedReports.filter (isLiveFor user later) =
      (store.cachedReports.filter (isLiveFor user now)).filter
        fun row => later < row.expiresAt := by
    rw [List.filter_filter]
    refine List.filter_congr fun row _ => ?_
    unfold isLiveFor
    by_cases live : later < row.expiresAt
    · simp [live, Int.lt_of_le_of_lt h live]
    · simp [live]
  unfold viewOf
  rw [reports]

/-! ## Changes of users -/

theorem viewOf_putUser_self {row : User} :
    (store.putUser row).viewOf row.id now =
      { store.viewOf row.id now with user := some row } := by
  have found := user?_putUser_self store row
  unfold viewOf
  rw [found]
  rfl

theorem viewOf_putUser_of_ne {row : User} (different : row.id ≠ user) :
    (store.putUser row).viewOf user now = store.viewOf user now := by
  have found : (store.putUser row).user? user = store.user? user :=
    user?_putUser_of_ne different
  unfold viewOf
  rw [found]
  rfl

theorem viewOf_withLimitsRestored :
    store.withLimitsRestored.viewOf user now =
      { store.viewOf user now with user := (store.viewOf user now).user.map restored } := by
  have found := user?_withLimitsRestored store user
  unfold viewOf
  rw [found]
  rfl

theorem viewOf_withoutUser_self (store : Store) (user now : Int) :
    (store.withoutUser user).viewOf user now =
      { store.viewOf user now with user := none, categories := [], expenses := [] } := by
  have found := user?_withoutUser_self store user
  have categories : (store.withoutUser user).categories.filter
      (fun row => decide (row.user = user)) = [] :=
    List.filter_eq_nil_iff.2 fun row member own =>
      of_decide_eq_true (List.mem_filter.1 member).2 (of_decide_eq_true own)
  have expenses : (store.withoutUser user).expenses.filter
      (fun row => decide (row.user = user)) = [] :=
    List.filter_eq_nil_iff.2 fun row member own =>
      (of_decide_eq_true (List.mem_filter.1 member).2).1 (of_decide_eq_true own)
  unfold viewOf
  rw [found, categories, expenses]
  rfl

theorem viewOf_withoutUser_of_ne (sound : store.Sound) {gone : Int} (different : user ≠ gone) :
    (store.withoutUser gone).viewOf user now = store.viewOf user now := by
  have found : (store.withoutUser gone).user? user = store.user? user :=
    user?_withoutUser_of_ne different
  have categories : (store.withoutUser gone).categories.filter
      (fun row => decide (row.user = user)) =
        store.categories.filter fun row => decide (row.user = user) := by
    show (store.categories.filter _).filter _ = _
    rw [List.filter_filter]
    refine List.filter_congr fun row _ => ?_
    by_cases own : row.user = user
    · simp [own, different]
    · simp [own]
  have expenses : (store.withoutUser gone).expenses.filter
      (fun row => decide (row.user = user)) =
        store.expenses.filter fun row => decide (row.user = user) := by
    rw [sound.expenses_withoutUser, List.filter_filter]
    refine List.filter_congr fun row _ => ?_
    by_cases own : row.user = user
    · simp [own, different]
    · simp [own]
  unfold viewOf
  rw [found, categories, expenses, map_seen_congr fun expense member => ?_]
  · rfl
  · obtain ⟨inTable, own⟩ := List.mem_filter.1 member
    exact sound.category?_withoutUser_of_ne inTable
      ((of_decide_eq_true own).trans_ne different)

/-! ## Changes of categories and expenses -/

theorem viewOf_withCategory_self (sound : store.Sound) (row : Category) (now : Int) :
    (store.withCategory row).viewOf row.user now =
      { store.viewOf row.user now with
        categories := (store.viewOf row.user now).categories ++ [row.name] } := by
  have categories : (store.withCategory row).categories.filter
      (fun other => decide (other.user = row.user)) =
        (store.categories.filter fun other => decide (other.user = row.user)) ++ [row] := by
    show (store.categories ++ [row]).filter _ = _
    rw [List.filter_append, List.filter_cons_of_pos (by simp), List.filter_nil]
  unfold viewOf
  rw [categories, List.map_append, map_seen_congr fun expense member => ?_]
  · rfl
  · exact sound.category?_withCategory (List.mem_filter.1 member).1

theorem viewOf_withCategory_of_ne (sound : store.Sound) {row : Category}
    (different : row.user ≠ user) :
    (store.withCategory row).viewOf user now = store.viewOf user now := by
  have categories : (store.withCategory row).categories.filter
      (fun other => decide (other.user = user)) =
        store.categories.filter fun other => decide (other.user = user) := by
    show (store.categories ++ [row]).filter _ = _
    rw [List.filter_append, List.filter_cons_of_neg (by simpa using different), List.filter_nil,
      List.append_nil]
  unfold viewOf
  rw [categories, map_seen_congr fun expense member => ?_]
  · rfl
  · exact sound.category?_withCategory (List.mem_filter.1 member).1

theorem viewOf_withExpense_self (store : Store) (row : Expense) (now : Int) :
    (store.withExpense row).viewOf row.user now =
      { store.viewOf row.user now with
        expenses := (store.viewOf row.user now).expenses ++ [store.seen row] } := by
  have expenses : (store.withExpense row).expenses.filter
      (fun other => decide (other.user = row.user)) =
        (store.expenses.filter fun other => decide (other.user = row.user)) ++ [row] := by
    show (store.expenses ++ [row]).filter _ = _
    rw [List.filter_append, List.filter_cons_of_pos (by simp), List.filter_nil]
  unfold viewOf
  rw [expenses, List.map_append]
  rfl

theorem viewOf_withExpense_of_ne {row : Expense} (different : row.user ≠ user) :
    (store.withExpense row).viewOf user now = store.viewOf user now := by
  have expenses : (store.withExpense row).expenses.filter
      (fun other => decide (other.user = user)) =
        store.expenses.filter fun other => decide (other.user = user) := by
    show (store.expenses ++ [row]).filter _ = _
    rw [List.filter_append, List.filter_cons_of_neg (by simpa using different), List.filter_nil,
      List.append_nil]
  unfold viewOf
  rw [expenses]
  rfl

/-! ## Changes of the cache -/

/-- The tables without the cached reports of a user. -/
def withoutReports (store : Store) (user : Int) : Store :=
  { store with
    cachedReports := store.cachedReports.filter fun row => !CacheKey.inRangeOf user row.key }

/-- The tables with one more cached report, and without those that have expired. -/
def withReport (store : Store) (now : Int) (row : CachedReport) : Store :=
  { store with
    cachedReports := Rows.put CachedReport.key row
      (store.cachedReports.filter fun row => now < row.expiresAt) }

theorem viewOf_withoutReports_self (store : Store) (user now : Int) :
    (store.withoutReports user).viewOf user now = { store.viewOf user now with reports := [] } := by
  have reports : (store.withoutReports user).cachedReports.filter (isLiveFor user now) = [] := by
    show (store.cachedReports.filter _).filter _ = _
    rw [List.filter_filter]
    refine List.filter_eq_nil_iff.2 fun row _ both => ?_
    unfold isLiveFor at both
    cases inRange : CacheKey.inRangeOf user row.key <;> simp [inRange] at both
  unfold viewOf
  rw [reports]
  rfl

theorem viewOf_withoutReports_of_ne {gone : Int} (different : user ≠ gone) :
    (store.withoutReports gone).viewOf user now = store.viewOf user now := by
  have reports : (store.withoutReports gone).cachedReports.filter (isLiveFor user now) =
      store.cachedReports.filter (isLiveFor user now) := by
    show (store.cachedReports.filter _).filter _ = _
    rw [List.filter_filter]
    refine List.filter_congr fun row _ => ?_
    unfold isLiveFor
    cases own : CacheKey.inRangeOf user row.key
    · simp
    · cases theirs : CacheKey.inRangeOf gone row.key
      · simp
      · exact absurd (CacheKey.eq_of_inRangeOf own theirs) different
  unfold viewOf
  rw [reports]
  rfl

theorem viewOf_withReport_self
    (ascending : Rows.Ascending CachedReport.key store.cachedReports) (row : CachedReport)
    (user now : Int) :
    (store.withReport now row).viewOf user now =
      { store.viewOf user now with
        reports := (Rows.put CachedReport.key row (store.viewOf user now).reports).filter
          (isLiveFor user now) } := by
  have kept (other : CachedReport) (passes : isLiveFor user now other = true) :
      decide (now < other.expiresAt) = true := (Bool.and_eq_true_iff.1 passes).2
  have reports := filter_put ascending row kept
  unfold viewOf
  exact congrArg (fun reports => UserView.mk _ _ _ reports) reports

theorem viewOf_withReport_of_ne {owner : Int} {row : CachedReport}
    (theirs : CacheKey.inRangeOf owner row.key = true) (different : user ≠ owner) :
    (store.withReport now row).viewOf user now = store.viewOf user now := by
  have foreign (other : CachedReport) (same : other.key = row.key) :
      isLiveFor user now other = false := by
    unfold isLiveFor
    cases own : CacheKey.inRangeOf user other.key
    · rfl
    · rw [same] at own
      exact absurd (CacheKey.eq_of_inRangeOf own theirs) different
  have reports : (store.withReport now row).cachedReports.filter (isLiveFor user now) =
      store.cachedReports.filter (isLiveFor user now) := by
    show (Rows.put _ _ _).filter _ = _
    rw [Rows.filter_put_of_not (foreign row rfl) fun other _ same => foreign other same,
      List.filter_filter]
    refine List.filter_congr fun other _ => ?_
    unfold isLiveFor
    cases decide (now < other.expiresAt) <;> simp
  unfold viewOf
  rw [reports]
  rfl

/-! ## What is read off a view -/

theorem isSome_categoryNamed? (store : Store) (user now : Int) (name : String) :
    (store.categoryNamed? user name).isSome =
      (store.viewOf user now).categories.contains name := by
  rw [Bool.eq_iff_iff]
  simp [categoryNamed?, viewOf, and_assoc]

theorem categoryName?_of_named (sound : store.Sound) {name : String} {row : Category}
    (h : store.categoryNamed? user name = some row) : store.categoryName? row.id = some name := by
  obtain ⟨member, -, named⟩ := categoryNamed?_eq_some h
  have found : store.category? row.id = some row := sound.ascending.get?_of_mem member
  unfold categoryName?
  rw [found, Option.map_some, named]

/-- An expense is read back as it is seen. -/
theorem expenseRow?_eq_seen (sound : store.Sound) {expense : Expense}
    (member : expense ∈ store.expenses) :
    ∃ row, store.expenseRow? expense = some row ∧ row.seen = store.seen expense := by
  obtain ⟨category, inTable, filed, -⟩ := sound.filed expense member
  have found : store.category? expense.category = some category := by
    rw [← filed]
    exact sound.ascending.get?_of_mem inTable
  refine ⟨_, congrArg (Option.map _) found, ?_⟩
  unfold seen categoryName?
  rw [found]
  rfl

theorem map_seen_filterMap (sound : store.Sound) {expenses : List Expense}
    (inTable : ∀ expense ∈ expenses, expense ∈ store.expenses) :
    (expenses.filterMap store.expenseRow?).map ExpenseRow.seen = expenses.map store.seen := by
  induction expenses with
  | nil => rfl
  | cons expense rest ih =>
    obtain ⟨row, read, same⟩ := expenseRow?_eq_seen sound (inTable expense List.mem_cons_self)
    rw [List.filterMap_cons_some read, List.map_cons, List.map_cons, same,
      ih fun other member => inTable other (List.mem_cons_of_mem _ member)]

/-- The expenses of a user since a second are those that it sees, in the order of their times. -/
theorem map_seen_expenseRows (sound : store.Sound) (user since now : Int) :
    (store.expenseRows user since).map ExpenseRow.seen =
      ((store.viewOf user now).expenses.filter fun expense => since ≤ expense.time).mergeSort
        fun a b => decide (a.time ≤ b.time) := by
  have chosen : (store.expenses.filter fun row => row.user = user ∧ since ≤ row.time).map
      store.seen = (store.viewOf user now).expenses.filter fun expense => since ≤ expense.time := by
    show _ = ((store.expenses.filter fun row => row.user = user).map store.seen).filter _
    rw [List.filter_map, List.filter_filter]
    refine congrArg (List.map store.seen) (List.filter_congr fun row _ => ?_)
    rw [Bool.decide_and, Bool.and_comm]
    rfl
  rw [← chosen]
  refine (map_seen_filterMap sound fun row member => ?_).trans
    (List.map_mergeSort fun _ _ _ _ => rfl)
  exact (List.mem_filter.1 (List.mem_mergeSort.1 member)).1

/-- What the cache has for a user is among the reports that the user sees. -/
theorem get?_reports (ascending : Rows.Ascending CachedReport.key store.cachedReports)
    (user now : Int) (since : Instant) :
    Rows.get? CachedReport.key (store.viewOf user now).reports (CacheKey.key user since) =
      (Rows.get? CachedReport.key store.cachedReports (CacheKey.key user since)).filter
        fun row => now < row.expiresAt := by
  refine (ascending.get?_filter (isLiveFor user now) _).trans ?_
  cases found : Rows.get? CachedReport.key store.cachedReports (CacheKey.key user since) with
  | none => rfl
  | some row =>
    have own : CacheKey.inRangeOf user row.key = true := by
      rw [(Rows.get?_eq_some found).2]
      exact CacheKey.inRangeOf_key user since
    have same : isLiveFor user now row = decide (now < row.expiresAt) := by
      rw [isLiveFor, own, Bool.true_and]
    simp only [Option.filter_some, same]

end Store

namespace Report

/-- A report depends on its rows as they are seen. -/
theorem aggregate_congr {rows rows' : List ExpenseRow} (rate : Rate)
    (same : rows.map ExpenseRow.seen = rows'.map ExpenseRow.seen) :
    aggregate rows rate = aggregate rows' rate := by
  have totals_eq : ∀ (sums : Report) {rows rows' : List ExpenseRow},
      rows.map ExpenseRow.seen = rows'.map ExpenseRow.seen →
        rows.foldlM addRow sums = rows'.foldlM addRow sums := by
    intro sums rows
    induction rows generalizing sums with
    | nil =>
      intro rows' same
      rw [List.map_eq_nil_iff.1 same.symm]
    | cons row rows ih =>
      intro rows' same
      obtain ⟨row', rest', rfl, head, tail⟩ := List.map_eq_cons_iff.1 same.symm
      have name : row'.categoryName = row.categoryName :=
        Option.some.inj (congrArg SeenExpense.category head)
      have amount : row'.amount = row.amount := congrArg SeenExpense.amount head
      have added : addRow sums row' = addRow sums row := by
        unfold addRow
        rw [name, amount]
      rw [List.foldlM_cons, List.foldlM_cons, added]
      exact congrArg (addRow sums row >>= ·) (funext fun middle => ih middle tail.symm)
  unfold aggregate totals
  rw [totals_eq empty same]

end Report
end ExpenseLedger
