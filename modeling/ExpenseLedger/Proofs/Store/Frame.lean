import ExpenseLedger.Proofs.Json.Codec
import ExpenseLedger.Proofs.Store.Sound
import Mathlib.Data.List.Basic

/-!
# What does not concern a user

A change is invisible to a user if the user keeps its currency and reads the same expenses:
`Store.SameFor`. Here are the changes that are invisible to everybody, and those that only the user
notices whom they are about. Numbers that reach a user's reports fit 64 bits: `Store.Fitting`.
-/

namespace ExpenseLedger
namespace Store

/-- The currency of a user. -/
def currencyOf? (store : Store) (user : Int) : Option Int :=
  (store.user? user).map User.currency

/-- The user, if there is one, keeps its currency and reads the same expenses. -/
structure SameFor (store after : Store) (user : Int) : Prop where
  currency : ∀ currency, store.currencyOf? user = some currency →
    after.currencyOf? user = some currency
  rows : ∀ since, after.expenseRows user since = store.expenseRows user since

/-- The numbers of expenses and categories fit 64 bits. -/
structure Fitting (store : Store) : Prop where
  ids : ∀ category ∈ store.categories, FitsInt64 category.id
  expenses : ∀ expense ∈ store.expenses,
    FitsInt64 expense.category ∧ FitsInt64 expense.time ∧ FitsInt64 expense.amount

section Rows

variable {store after : Store} {user : Int}

/-- The rows depend on the expenses of the user and on what their categories are called. -/
theorem expenseRows_congr
    (expenses : (after.expenses.filter fun expense => expense.user = user) =
      store.expenses.filter fun expense => expense.user = user)
    (named : ∀ expense ∈ store.expenses, expense.user = user →
      after.category? expense.category = store.category? expense.category) (since : Int) :
    after.expenseRows user since = store.expenseRows user since := by
  have chosen (store : Store) :
      (store.expenses.filter fun expense => expense.user = user ∧ since ≤ expense.time) =
        (store.expenses.filter fun expense => expense.user = user).filter
          fun expense => since ≤ expense.time := by
    rw [List.filter_filter]
    apply List.filter_congr
    intro expense _
    rw [Bool.decide_and, Bool.and_comm]
  unfold expenseRows
  rw [chosen after, chosen store, expenses]
  apply List.filterMap_congr
  intro expense member
  obtain ⟨inTable, own⟩ := List.mem_filter.1
    (List.mem_filter.1 (List.mem_mergeSort.1 member)).1
  unfold expenseRow?
  rw [named expense inTable (of_decide_eq_true own)]

theorem fits_of_mem_expenseRows (fitting : store.Fitting) {since : Int} {row : ExpenseRow}
    (member : row ∈ store.expenseRows user since) : row.Fits := by
  obtain ⟨expense, chosen, made⟩ := List.mem_filterMap.1 member
  obtain ⟨category, -, rfl⟩ := Option.map_eq_some_iff.1 made
  have inTable := (List.mem_filter.1 (List.mem_mergeSort.1 chosen)).1
  obtain ⟨id, time, amount⟩ := fitting.expenses expense inTable
  exact ⟨id, time, amount⟩

end Rows

/-! ## Changes that do not concern a user -/

namespace SameFor

variable {store after : Store} {user : Int}

/-- A change of none of the tables in question. -/
theorem of_same (users : after.users = store.users) (same : SameEntries store after) :
    SameFor store after user where
  currency := by
    intro currency found
    unfold currencyOf? user? at found ⊢
    rw [users]
    exact found
  rows := same.expenseRows user

theorem trans {middle : Store} (first : SameFor store middle user)
    (second : SameFor middle after user) : SameFor store after user where
  currency := fun currency found => second.currency currency (first.currency currency found)
  rows := fun since => (second.rows since).trans (first.rows since)

/-- A row of a user that keeps its currency, or that is new. -/
theorem putUser {row : User}
    (kept : ∀ old, store.user? row.id = some old → old.currency = row.currency) :
    SameFor store (store.putUser row) user where
  currency := by
    intro currency found
    unfold currencyOf? at found ⊢
    by_cases same : row.id = user
    · subst same
      obtain ⟨old, inTable, rfl⟩ := Option.map_eq_some_iff.1 found
      rw [user?_putUser_self, kept old inTable]
      rfl
    · rw [user?_putUser_of_ne same]
      exact found
  rows := (sameEntries_putUser store row).expenseRows user

theorem putUser_of_ne {row : User} (different : row.id ≠ user) :
    SameFor store (store.putUser row) user where
  currency := by
    intro currency found
    unfold currencyOf? at found ⊢
    rw [user?_putUser_of_ne different]
    exact found
  rows := (sameEntries_putUser store row).expenseRows user

theorem withLimitsRestored : SameFor store store.withLimitsRestored user where
  currency := by
    intro currency found
    unfold currencyOf? at found ⊢
    rw [user?_withLimitsRestored, Option.map_map]
    exact found
  rows := (sameEntries_withLimitsRestored store).expenseRows user

/-- Whoever goes takes nothing along that belongs to somebody else. -/
theorem withoutUser_of_ne (sound : store.Sound) {gone : Int} (different : user ≠ gone) :
    SameFor store (store.withoutUser gone) user where
  currency := by
    intro currency found
    unfold currencyOf? at found ⊢
    rw [user?_withoutUser_of_ne different]
    exact found
  rows := by
    refine expenseRows_congr ?_ fun expense member own => ?_
    · rw [sound.expenses_withoutUser, List.filter_filter]
      apply List.filter_congr
      intro expense _
      by_cases own : expense.user = user
      · simp [own, different]
      · simp [own]
    · exact sound.category?_withoutUser_of_ne member (own.trans_ne different)

theorem withCategory (sound : store.Sound) {row : Category} :
    SameFor store (store.withCategory row) user where
  currency := fun _ found => found
  rows := expenseRows_congr rfl fun _ member _ => sound.category?_withCategory member

theorem withExpense_of_ne {row : Expense} (different : row.user ≠ user) :
    SameFor store (store.withExpense row) user where
  currency := fun _ found => found
  rows := by
    refine expenseRows_congr ?_ fun _ _ _ => rfl
    show (store.expenses ++ [row]).filter _ = _
    rw [List.filter_append, List.filter_cons_of_neg (by simpa using different), List.filter_nil,
      List.append_nil]

end SameFor

/-! ## Numbers stay within 64 bits -/

namespace Fitting

variable {store after : Store}

theorem of_same (fitting : store.Fitting) (same : SameEntries store after) : after.Fitting where
  ids := by
    rw [same.categories]
    exact fitting.ids
  expenses := by
    rw [same.expenses]
    exact fitting.expenses

theorem withoutUser (fitting : store.Fitting) (user : Int) : (store.withoutUser user).Fitting where
  ids := fun category member => fitting.ids category (List.mem_filter.1 member).1
  expenses := fun expense member => fitting.expenses expense (List.mem_filter.1 member).1

theorem withCategory (fitting : store.Fitting) {row : Category} (fits : FitsInt64 row.id) :
    (store.withCategory row).Fitting where
  ids := by
    intro category member
    rcases List.mem_append.1 member with old | new
    · exact fitting.ids category old
    · rw [List.mem_singleton.1 new]
      exact fits
  expenses := fitting.expenses

theorem withExpense (fitting : store.Fitting) {row : Expense}
    (fits : FitsInt64 row.category ∧ FitsInt64 row.time ∧ FitsInt64 row.amount) :
    (store.withExpense row).Fitting where
  ids := fitting.ids
  expenses := by
    intro expense member
    rcases List.mem_append.1 member with old | new
    · exact fitting.expenses expense old
    · rw [List.mem_singleton.1 new]
      exact fits

end Fitting
end Store
end ExpenseLedger
