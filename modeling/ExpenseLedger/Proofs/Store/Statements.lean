import ExpenseLedger.Proofs.Outcome
import ExpenseLedger.Proofs.Rows
import ExpenseLedger.Store.Currencies
import ExpenseLedger.Store.Expenses

/-!
# What a statement on the tables does when it succeeds

One lemma for each statement. It says which rows were found and what the tables are afterwards, so
that nothing above this module opens the statements. `Store.withUser` and its like are the changes
themselves; their effect on the look-ups stands beside them.
-/

namespace ExpenseLedger
namespace Store

variable {store after : Store}

/-! ## Changes of the tables -/

@[simp] theorem user?_putUser_self (store : Store) (row : User) :
    (store.putUser row).user? row.id = some row :=
  Rows.get?_put_self

theorem user?_putUser_of_ne {row : User} {id : Int} (different : row.id ≠ id) :
    (store.putUser row).user? id = store.user? id :=
  Rows.get?_put_of_ne different

theorem user?_withoutUser_self (store : Store) (id : Int) :
    (store.withoutUser id).user? id = none := by
  refine Rows.get?_eq_none.2 fun row member => ?_
  simpa using (List.mem_filter.1 member).2

theorem user?_withoutUser_of_ne {user id : Int} (different : id ≠ user) :
    (store.withoutUser user).user? id = store.user? id := by
  refine Rows.get?_filter fun row _ same => ?_
  rw [← same] at different
  simpa using different

theorem user?_id {id : Int} {row : User} (h : store.user? id = some row) : row.id = id :=
  (Rows.get?_eq_some h).2

/-- The tables after all limits have been started over. -/
def withLimitsRestored (store : Store) : Store :=
  { store with users := store.users.map restored }

theorem user?_withLimitsRestored (store : Store) (id : Int) :
    store.withLimitsRestored.user? id = (store.user? id).map restored :=
  Rows.get?_map fun _ _ => rfl

/-- The row of a category that is made next. -/
def nextCategoryRow (store : Store) (user : Int) (name : String) : Category :=
  { id := store.nextCategory, user, name }

/-- The tables after a number of a category has been spent on nothing. -/
def withoutNextCategory (store : Store) : Store :=
  { store with nextCategory := store.nextCategory + 1 }

/-- The tables with one more category. -/
def withCategory (store : Store) (row : Category) : Store :=
  { store with categories := store.categories ++ [row], nextCategory := store.nextCategory + 1 }

/-- The row of an expense that is booked next. -/
def nextExpenseRow (store : Store) (expense : NewExpense) : Expense :=
  { id := store.nextExpense, user := expense.user, category := expense.category
    time := expense.time.seconds, amount := expense.amount }

/-- The tables with one more expense. -/
def withExpense (store : Store) (row : Expense) : Store :=
  { store with expenses := store.expenses ++ [row], nextExpense := store.nextExpense + 1 }

/-- A user whose current limit has been charged. -/
def charged (row : User) (amount : Int) : User :=
  { row with currentLimit := row.currentLimit - amount }

/-! ## Users -/

theorem user_eq_ok {id : Int} {row : User} :
    store.user id = .ok row ↔ store.reaches [.users] = true ∧ store.user? id = some row := by
  unfold user
  rw [Outcome.bind_eq_ok]
  simp only [reach_eq_ok, exists_const]
  cases store.user? id <;> simp

theorem addUser_eq_ok {user limit : Int} {created : Bool}
    (h : store.addUser user limit = .ok (created, after)) :
    (created = false ∧ after = store ∧ ∃ row, store.user? user = some row) ∨
    (created = true ∧ store.user? user = none ∧
      (∃ currency, store.currency? referenceCurrency = some currency) ∧
      after = store.putUser { id := user, currency := referenceCurrency, defaultLimit := limit
                              currentLimit := limit }) := by
  unfold addUser at h
  obtain ⟨-, -, h⟩ := Outcome.bind_eq_ok.1 h
  cases found : store.user? user with
  | some row =>
    simp only [found] at h
    cases h
    exact Or.inl ⟨rfl, rfl, row, rfl⟩
  | none =>
    cases reference : store.currency? referenceCurrency with
    | none =>
      simp only [found, reference] at h
      cases h
    | some currency =>
      simp only [found, reference] at h
      cases h
      exact Or.inr ⟨rfl, rfl, ⟨currency, rfl⟩, rfl⟩

theorem deleteUser_eq_ok {user : Int} (h : store.deleteUser user = .ok after) :
    (∃ row, store.user? user = some row) ∧ after = store.withoutUser user := by
  unfold deleteUser at h
  obtain ⟨-, -, h⟩ := Outcome.bind_eq_ok.1 h
  cases found : store.user? user with
  | none =>
    simp only [found] at h
    cases h
  | some row =>
    simp only [found] at h
    cases h
    exact ⟨⟨row, rfl⟩, rfl⟩

theorem changeUser_eq_ok {statement : Statement} {user : Int} {change : User → Outcome User}
    (h : store.changeUser statement user change = .ok after) :
    ∃ row row', store.user? user = some row ∧ change row = .ok row' ∧
      after = store.putUser row' := by
  unfold changeUser at h
  obtain ⟨-, -, h⟩ := Outcome.bind_eq_ok.1 h
  cases found : store.user? user with
  | none =>
    simp only [found] at h
    cases h
  | some row =>
    simp only [found] at h
    obtain ⟨row', changed, h⟩ := Outcome.bind_eq_ok.1 h
    cases h
    exact ⟨row, row', rfl, changed, rfl⟩

theorem setCurrency_eq_ok {user currency : Int} (h : store.setCurrency user currency = .ok after) :
    ∃ row, store.user? user = some row ∧ (∃ row', store.currency? currency = some row') ∧
      after = store.putUser { row with currency } := by
  obtain ⟨row, row', found, changed, rfl⟩ := changeUser_eq_ok h
  cases target : store.currency? currency with
  | none =>
    simp only [target] at changed
    cases changed
  | some currencyRow =>
    simp only [target] at changed
    cases changed
    exact ⟨row, found, ⟨currencyRow, rfl⟩, rfl⟩

theorem setLimit_eq_ok {user limit : Int} (h : store.setLimit user limit = .ok after) :
    ∃ row, store.user? user = some row ∧
      after = store.putUser { row with defaultLimit := limit, currentLimit := limit } := by
  obtain ⟨row, row', found, changed, rfl⟩ := changeUser_eq_ok h
  cases changed
  exact ⟨row, found, rfl⟩

theorem resetLimit_eq_ok {user : Int} (h : store.resetLimit user = .ok after) :
    ∃ row, store.user? user = some row ∧ after = store.putUser (restored row) := by
  obtain ⟨row, row', found, changed, rfl⟩ := changeUser_eq_ok h
  cases changed
  exact ⟨row, found, rfl⟩

theorem resetAllLimits_eq_ok {count : Nat} (h : store.resetAllLimits = .ok (count, after)) :
    after = store.withLimitsRestored := by
  unfold resetAllLimits at h
  obtain ⟨-, -, h⟩ := Outcome.bind_eq_ok.1 h
  cases h
  rfl

theorem charge_eq_ok {user amount : Int} (h : store.charge user amount = .ok after) :
    ∃ row, store.user? user = some row ∧ 0 ≤ row.currentLimit - amount ∧
      after = store.putUser (charged row amount) := by
  obtain ⟨row, row', found, changed, rfl⟩ := changeUser_eq_ok h
  by_cases fits : FitsInt64 (row.currentLimit - amount)
  · by_cases less : row.currentLimit - amount < 0
    · simp only [fits, less, not_true_eq_false, if_true, if_false] at changed
      cases changed
    · simp only [fits, less, not_true_eq_false, if_false] at changed
      cases changed
      exact ⟨row, found, Int.not_lt.1 less, rfl⟩
  · simp only [fits, not_false_eq_true, if_true] at changed
    cases changed

/-! ## Categories and expenses -/

theorem categoryNamed?_eq_some {user : Int} {name : String} {row : Category}
    (h : store.categoryNamed? user name = some row) :
    row ∈ store.categories ∧ row.user = user ∧ row.name = name := by
  have passes := List.find?_some h
  simp only [decide_eq_true_eq] at passes
  exact ⟨List.mem_of_find?_eq_some h, passes⟩

theorem category?_eq_some {id : Int} {row : Category} (h : store.category? id = some row) :
    row ∈ store.categories ∧ row.id = id :=
  ⟨List.mem_of_find?_eq_some h, by simpa using List.find?_some h⟩

theorem categoryId_eq_ok {user : Int} {name : String} {id : Option Int} :
    store.categoryId user name = .ok id ↔ store.reaches [.categories] = true ∧
      (store.categoryNamed? user name).map Category.id = id := by
  unfold categoryId
  rw [Outcome.bind_eq_ok]
  simp only [reach_eq_ok, exists_const, Except.ok.injEq]

theorem addCategory_eq_ok {user : Int} {name : String} {created : Bool}
    (h : store.addCategory user name = .ok (created, after)) :
    FitsInt64 store.nextCategory ∧
    ((created = false ∧ (∃ row, store.categoryNamed? user name = some row) ∧
      after = store.withoutNextCategory) ∨
    (created = true ∧ store.categoryNamed? user name = none ∧
      (∃ row, store.user? user = some row) ∧
      after = store.withCategory (store.nextCategoryRow user name))) := by
  unfold addCategory at h
  obtain ⟨-, -, h⟩ := Outcome.bind_eq_ok.1 h
  obtain ⟨u, granted, h⟩ := Outcome.bind_eq_ok.1 h
  refine ⟨grant_eq_ok.1 granted, ?_⟩
  cases taken : store.categoryNamed? user name with
  | some row =>
    simp only [taken] at h
    cases h
    exact Or.inl ⟨rfl, ⟨row, rfl⟩, rfl⟩
  | none =>
    cases found : store.user? user with
    | none =>
      simp only [taken, found] at h
      cases h
    | some row =>
      simp only [taken, found] at h
      cases h
      exact Or.inr ⟨rfl, rfl, ⟨row, rfl⟩, rfl⟩

theorem addExpense_eq_ok {expense : NewExpense} (h : store.addExpense expense = .ok after) :
    (∃ row, store.user? expense.user = some row) ∧
      (∃ row, store.category? expense.category = some row) ∧
      after = store.withExpense (store.nextExpenseRow expense) := by
  unfold addExpense at h
  obtain ⟨-, -, h⟩ := Outcome.bind_eq_ok.1 h
  obtain ⟨-, -, h⟩ := Outcome.bind_eq_ok.1 h
  cases foundUser : store.user? expense.user with
  | none =>
    simp only [foundUser] at h
    cases h
  | some user =>
    cases foundCategory : store.category? expense.category with
    | none =>
      simp only [foundUser, foundCategory] at h
      cases h
    | some category =>
      simp only [foundUser, foundCategory] at h
      cases h
      exact ⟨⟨user, rfl⟩, ⟨category, rfl⟩, rfl⟩

/-- A booked expense is a new row, and a charge if the limit is enforced. -/
theorem insertExpense_eq_ok {expense : NewExpense} {enforce : Bool}
    (h : store.insertExpense expense enforce = .ok after) :
    ∃ row, store.user? expense.user = some row ∧
      (∃ category, store.category? expense.category = some category) ∧
      ((enforce = false ∧ after = store.withExpense (store.nextExpenseRow expense)) ∨
        (enforce = true ∧ 0 ≤ row.currentLimit - expense.amount ∧
          after = (store.putUser (charged row expense.amount)).withExpense
            (store.nextExpenseRow expense))) := by
  cases enforce with
  | false =>
    change store.addExpense expense = .ok after at h
    obtain ⟨⟨row, found⟩, category, rfl⟩ := addExpense_eq_ok h
    exact ⟨row, found, category, Or.inl ⟨rfl, rfl⟩⟩
  | true =>
    change (store.charge expense.user expense.amount >>= fun charged =>
      charged.addExpense expense) = .ok after at h
    obtain ⟨middle, charging, h⟩ := Outcome.bind_eq_ok.1 h
    obtain ⟨row, found, enough, rfl⟩ := charge_eq_ok charging
    obtain ⟨-, category, rfl⟩ := addExpense_eq_ok h
    exact ⟨row, found, category, Or.inr ⟨rfl, enough, rfl⟩⟩

/-! ## Currencies -/

theorem currency_eq_ok {id : Int} {row : Currency} :
    store.currency id = .ok row ↔
      store.reaches [.currencies] = true ∧ store.currency? id = some row := by
  unfold currency
  rw [Outcome.bind_eq_ok]
  simp only [reach_eq_ok, exists_const]
  cases store.currency? id <;> simp

/-- A rate that can be used is that of a row. -/
theorem exists_row_of_rate {id : Int} {rate : Rate} (h : store.rate id = .ok rate) :
    ∃ row, store.currency? id = some row ∧ Rate.ofBinary64 row.rate = .ok rate := by
  obtain ⟨row, read, h⟩ := Outcome.bind_eq_ok.1 h
  refine ⟨row, (currency_eq_ok.1 read).2, ?_⟩
  cases made : Rate.ofBinary64 row.rate with
  | error fault =>
    rw [made] at h
    cases h
  | ok rate' =>
    rw [made] at h
    cases h
    rfl

end Store
end ExpenseLedger
