import ExpenseLedger.Proofs.Ledger.Acceptance

/-!
# What erasing a user takes away

Erasing goes by the user's categories to its expenses and by the prefix of its keys to its reports. In
books that are sound and regular that comes to what is the user's own, all of it and nothing else:
`Books.Erased`.
-/

namespace ExpenseLedger
namespace Books

/-- The row of a user is gone, and so are its categories, its expenses and its reports; all else is as it
was. -/
structure Erased (books : Books) (user : Int) (after : Books) : Prop where
  users : after.store.users = books.store.users.filter fun row => row.id ≠ user
  categories : after.store.categories =
    books.store.categories.filter fun category => category.user ≠ user
  expenses : after.store.expenses = books.store.expenses.filter fun expense => expense.user ≠ user
  reports : ∀ entry, entry ∈ after.entries ↔ entry ∈ books.entries ∧ ¬entry.IsOf user
  tables : { after.store with
    users := books.store.users, categories := books.store.categories
    expenses := books.store.expenses, cachedReports := books.store.cachedReports } = books.store

/-- A user that is there is erased, and then its reports are dropped. -/
theorem resetUser_of_found {books : Books} (reached : books.store.outOfReach = []) {user : Int}
    {row : User} (found : books.store.user? user = some row) :
    books.resetUser user =
      .ok ({ books with store := books.store.withoutUser user }.invalidate user) := by
  have deleted : books.store.deleteUser user = .ok (books.store.withoutUser user) := by
    unfold Store.deleteUser
    rw [Store.reach_of_outOfReach reached, found]
    rfl
  have written : (books.withStore fun store => store.deleteUser user) =
      .ok { books with store := books.store.withoutUser user } :=
    withStore_eq_ok.2 ⟨_, deleted, rfl⟩
  exact Outcome.bind_eq_ok.2 ⟨_, written, rfl⟩

/-- Erasing takes away what is the user's, and nothing else. -/
theorem Regular.resetUser {books : Books} (regular : books.Regular) (sound : books.store.Sound)
    (reached : books.store.outOfReach = []) {user : Int} {row : User}
    (found : books.store.user? user = some row) :
    ∃ after, books.resetUser user = .ok after ∧ books.Erased user after := by
  let middle : Books := { books with store := books.store.withoutUser user }
  obtain ⟨cachedReports, dropped⟩ := middle.invalidate_store user
  have reports : (middle.invalidate user).entries =
      middle.entries.filter fun entry => !CacheKey.inRangeOf user entry.key :=
    @entries_invalidate middle reached regular.ordered user
  have same : middle.entries = books.entries := entries_of_same rfl rfl
  refine ⟨middle.invalidate user, resetUser_of_found reached found, ?_⟩
  constructor
  case users => exact congrArg Store.users dropped
  case categories => exact congrArg Store.categories dropped
  case expenses => exact (congrArg Store.expenses dropped).trans (sound.expenses_withoutUser user)
  case reports =>
    intro entry
    rw [reports, same, List.mem_filter]
    refine and_congr_right fun member => ?_
    rw [← regular.inRangeOf_iff user member]
    simp
  case tables =>
    rw [dropped]
    rfl

end Books
end ExpenseLedger
