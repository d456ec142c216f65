import ExpenseLedger.Proofs.Store.Statements

/-!
# Tables that fit together

Numbers of categories and expenses are below the ones that come next, and every expense is filed
under a category of its own user. A category that somebody has looked up may be gone by the time
it is used, but its number never comes to belong to another user: `Store.Files`.
-/

namespace ExpenseLedger
namespace Store

/-- The same categories and expenses, and the same numbers come next. -/
structure SameEntries (store after : Store) : Prop where
  categories : after.categories = store.categories
  expenses : after.expenses = store.expenses
  nextCategory : after.nextCategory = store.nextCategory
  nextExpense : after.nextExpense = store.nextExpense

/-- The same messages wait, and the same number comes next. -/
structure SameQueue (store after : Store) : Prop where
  messages : after.messages = store.messages
  nextMessage : after.nextMessage = store.nextMessage

/-- The same rows but for currencies and cached reports. -/
structure SameRows (store after : Store) : Prop extends SameEntries store after where
  users : after.users = store.users
  messages : after.messages = store.messages
  nextMessage : after.nextMessage = store.nextMessage

/-- Categories and expenses are numbered from below, and an expense is filed under a category of
its user. -/
structure Sound (store : Store) : Prop where
  ascending : Rows.Ascending Category.id store.categories
  categories_lt : ∀ category ∈ store.categories, category.id < store.nextCategory
  expenses_lt : ∀ expense ∈ store.expenses, expense.id < store.nextExpense
  filed : ∀ expense ∈ store.expenses, ∃ category ∈ store.categories,
    category.id = expense.category ∧ category.user = expense.user

/-- The number has been given to a category, and if it still exists, it is one of the user. -/
def Files (store : Store) (user category : Int) : Prop :=
  category < store.nextCategory ∧ ∀ row ∈ store.categories, row.id = category → row.user = user

section Changes

variable {store after : Store} {user category : Int} {name : String}

theorem SameEntries.refl (store : Store) : SameEntries store store :=
  ⟨rfl, rfl, rfl, rfl⟩

theorem SameRows.refl (store : Store) : SameRows store store :=
  ⟨.refl store, rfl, rfl, rfl⟩

theorem SameRows.queue (same : SameRows store after) : SameQueue store after :=
  ⟨same.messages, same.nextMessage⟩

theorem SameEntries.expenseRows (h : SameEntries store after) (user since : Int) :
    after.expenseRows user since = store.expenseRows user since := by
  have row : after.expenseRow? = store.expenseRow? := by
    funext expense
    unfold expenseRow? category?
    rw [h.categories]
  unfold Store.expenseRows
  rw [h.expenses, row]

/-- A change of the users alone. -/
theorem sameEntries_putUser (store : Store) (row : User) : SameEntries store (store.putUser row) :=
  ⟨rfl, rfl, rfl, rfl⟩

theorem sameEntries_withLimitsRestored (store : Store) :
    SameEntries store store.withLimitsRestored :=
  ⟨rfl, rfl, rfl, rfl⟩

/-! ## The numbers stay below and the expenses stay filed -/

namespace Sound

theorem of_same (sound : store.Sound) (same : SameEntries store after) : after.Sound where
  ascending := by
    rw [same.categories]
    exact sound.ascending
  categories_lt := by
    rw [same.categories, same.nextCategory]
    exact sound.categories_lt
  expenses_lt := by
    rw [same.expenses, same.nextExpense]
    exact sound.expenses_lt
  filed := by
    rw [same.expenses, same.categories]
    exact sound.filed

/-- Empty tables fit together. -/
theorem of_empty (noCategories : store.categories = []) (noExpenses : store.expenses = []) :
    store.Sound where
  ascending := by simp [Rows.Ascending, noCategories]
  categories_lt := by simp [noCategories]
  expenses_lt := by simp [noExpenses]
  filed := by simp [noExpenses]

/-- Whoever goes takes along exactly the expenses that are its own. -/
theorem expenses_withoutUser (sound : store.Sound) (user : Int) :
    (store.withoutUser user).expenses =
      store.expenses.filter fun expense => expense.user ≠ user := by
  apply List.filter_congr
  intro expense member
  obtain ⟨category, inTable, same, owner⟩ := sound.filed expense member
  by_cases own : expense.user = user
  · simp [own]
  · have stays : expense.category ∉
        (store.categories.filter fun category => category.user = user).map Category.id := by
      intro gone
      obtain ⟨other, inGone, same'⟩ := List.mem_map.1 gone
      obtain ⟨inTable', theirs⟩ := List.mem_filter.1 inGone
      have one := sound.ascending.eq_of_key_eq inTable inTable' (same.trans same'.symm)
      rw [← one, owner] at theirs
      exact own (of_decide_eq_true theirs)
    simp [own, stays]

/-- An expense of somebody who stays keeps its category. -/
theorem category?_withoutUser_of_ne (sound : store.Sound) {expense : Expense}
    (member : expense ∈ store.expenses) (different : expense.user ≠ user) :
    (store.withoutUser user).category? expense.category = store.category? expense.category := by
  obtain ⟨category, inTable, filed, owner⟩ := sound.filed expense member
  refine Rows.get?_filter fun row inRows same => ?_
  rw [sound.ascending.eq_of_key_eq inRows inTable (same.trans filed.symm), owner]
  exact decide_eq_true different

/-- A new category is behind all that expenses are filed under. -/
theorem category?_withCategory (sound : store.Sound) {row : Category} {expense : Expense}
    (member : expense ∈ store.expenses) :
    (store.withCategory row).category? expense.category = store.category? expense.category := by
  obtain ⟨category, inTable, filed, -⟩ := sound.filed expense member
  have found : (store.categories.find? fun row => row.id = expense.category).isSome = true :=
    List.find?_isSome.2 ⟨category, inTable, decide_eq_true filed⟩
  unfold Store.withCategory category?
  rw [List.find?_append]
  obtain ⟨first, isFirst⟩ := Option.isSome_iff_exists.1 found
  rw [isFirst, Option.some_or]

theorem withoutUser (sound : store.Sound) (user : Int) : (store.withoutUser user).Sound where
  ascending := sound.ascending.filter _
  categories_lt := fun category member => sound.categories_lt category (List.mem_filter.1 member).1
  expenses_lt := fun expense member => sound.expenses_lt expense (List.mem_filter.1 member).1
  filed := by
    rw [sound.expenses_withoutUser]
    intro expense member
    obtain ⟨inTable, other⟩ := List.mem_filter.1 member
    obtain ⟨category, inCategories, same, owner⟩ := sound.filed expense inTable
    refine ⟨category, List.mem_filter.2 ⟨inCategories, ?_⟩, same, owner⟩
    rw [owner]
    exact other

theorem withoutNextCategory (sound : store.Sound) : store.withoutNextCategory.Sound where
  ascending := sound.ascending
  categories_lt := by
    intro category member
    have := sound.categories_lt category member
    show category.id < store.nextCategory + 1
    omega
  expenses_lt := sound.expenses_lt
  filed := sound.filed

theorem withCategory (sound : store.Sound) :
    (store.withCategory (store.nextCategoryRow user name)).Sound where
  ascending := by
    refine List.pairwise_append.2 ⟨sound.ascending, List.pairwise_singleton _ _, ?_⟩
    intro category member last inLast
    rw [List.mem_singleton.1 inLast]
    exact sound.categories_lt category member
  categories_lt := by
    intro category member
    show category.id < store.nextCategory + 1
    rcases List.mem_append.1 member with old | new
    · have := sound.categories_lt category old
      omega
    · rw [List.mem_singleton.1 new]
      exact Int.lt_succ _
  expenses_lt := sound.expenses_lt
  filed := by
    intro expense member
    obtain ⟨category, inTable, same⟩ := sound.filed expense member
    exact ⟨category, List.mem_append_left _ inTable, same⟩

theorem withExpense (sound : store.Sound) {row : Expense} (new : row.id = store.nextExpense)
    (filed : ∃ category ∈ store.categories, category.id = row.category ∧ category.user = row.user) :
    (store.withExpense row).Sound where
  ascending := sound.ascending
  categories_lt := sound.categories_lt
  expenses_lt := by
    intro booked member
    show booked.id < store.nextExpense + 1
    rcases List.mem_append.1 member with old | last
    · have := sound.expenses_lt booked old
      omega
    · rw [List.mem_singleton.1 last, new]
      exact Int.lt_succ _
  filed := by
    intro booked member
    rcases List.mem_append.1 member with old | last
    · exact sound.filed booked old
    · rw [List.mem_singleton.1 last]
      exact filed

end Sound

/-! ## A number stays with its user -/

namespace Files

theorem of_same (files : store.Files user category) (same : SameEntries store after) :
    after.Files user category := by
  unfold Files
  rw [same.categories, same.nextCategory]
  exact files

theorem withoutUser (files : store.Files user category) (gone : Int) :
    (store.withoutUser gone).Files user category :=
  ⟨files.1, fun row member => files.2 row (List.mem_filter.1 member).1⟩

theorem withoutNextCategory (files : store.Files user category) :
    store.withoutNextCategory.Files user category := by
  refine ⟨?_, files.2⟩
  have := files.1
  show category < store.nextCategory + 1
  omega

theorem withCategory (files : store.Files user category) {other : Int} :
    (store.withCategory (store.nextCategoryRow other name)).Files user category := by
  obtain ⟨given, owned⟩ := files
  constructor
  · show category < store.nextCategory + 1
    omega
  · intro row member same
    rcases List.mem_append.1 member with old | new
    · exact owned row old same
    · rw [List.mem_singleton.1 new] at same
      have : store.nextCategory = category := same
      omega

theorem withExpense (files : store.Files user category) {row : Expense} :
    (store.withExpense row).Files user category :=
  files

/-- What is found under a name is filed so. -/
theorem of_named (sound : store.Sound) {row : Category}
    (h : store.categoryNamed? user name = some row) : store.Files user row.id := by
  obtain ⟨member, owner, -⟩ := categoryNamed?_eq_some h
  refine ⟨sound.categories_lt row member, fun other inTable same => ?_⟩
  rw [sound.ascending.eq_of_key_eq inTable member same]
  exact owner

/-- If the number is still that of a category, an expense may be filed under it. -/
theorem exists_row (files : store.Files user category) {row : Category}
    (h : store.category? category = some row) :
    ∃ row ∈ store.categories, row.id = category ∧ row.user = user := by
  obtain ⟨member, same⟩ := category?_eq_some h
  exact ⟨row, member, same, files.2 row member same⟩

end Files

end Changes

end Store
end ExpenseLedger
