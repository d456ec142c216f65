import ExpenseLedger.Books
import ExpenseLedger.Proofs.Outcome
import ExpenseLedger.Proofs.Store.Sound

/-!
# Changes of the books

Dropping finished reports changes the cache and nothing else, whether or not the cache lets it.
-/

namespace ExpenseLedger
namespace Books

variable {books after : Books}

theorem withStore_eq_ok {change : Store → Outcome Store} :
    books.withStore change = .ok after ↔
      ∃ store, change books.store = .ok store ∧ after = { books with store } := by
  unfold withStore
  rw [Outcome.bind_eq_ok]
  simp only [Except.ok.injEq, eq_comm]

/-- Looking a report up changes no table. -/
theorem cachedReport_store {now user : Int} {since : Instant} {report : Option Report}
    (h : books.cachedReport now user since = .ok (report, after)) : after.store = books.store := by
  unfold cachedReport at h
  split at h
  · cases h
    rfl
  · obtain ⟨found, -, h⟩ := Outcome.bind_eq_ok.1 h
    cases h
    rfl
  · cases h

theorem cacheReport_store {now user : Int} {ttl : Nat} {since : Instant} {report : Report}
    (h : books.cacheReport now ttl user since report = .ok after) :
    ∃ cachedReports, after.store = { books.store with cachedReports } := by
  unfold cacheReport at h
  split at h
  · cases h
    exact ⟨books.store.cachedReports, rfl⟩
  · obtain ⟨store, stored, rfl⟩ := withStore_eq_ok.1 h
    obtain ⟨-, -, stored⟩ := Outcome.bind_eq_ok.1 stored
    cases stored
    exact ⟨_, rfl⟩
  · cases h

theorem dropReports_store {user : Int} {count : Nat}
    (h : books.dropReports user = .ok (count, after)) :
    ∃ cachedReports, after.store = { books.store with cachedReports } := by
  unfold dropReports at h
  split at h
  · cases h
    exact ⟨books.store.cachedReports, rfl⟩
  · obtain ⟨⟨count', store⟩, dropped, h⟩ := Outcome.bind_eq_ok.1 h
    obtain ⟨-, -, dropped⟩ := Outcome.bind_eq_ok.1 dropped
    cases dropped
    cases h
    exact ⟨_, rfl⟩
  · cases h

theorem invalidate_store (books : Books) (user : Int) :
    ∃ cachedReports, (books.invalidate user).store = { books.store with cachedReports } := by
  unfold invalidate
  split
  · next count after dropped => exact dropReports_store dropped
  · exact ⟨books.store.cachedReports, rfl⟩

theorem sameRows_invalidate (books : Books) (user : Int) :
    Store.SameRows books.store (books.invalidate user).store := by
  obtain ⟨cachedReports, dropped⟩ := books.invalidate_store user
  rw [dropped]
  exact ⟨⟨rfl, rfl, rfl, rfl⟩, rfl, rfl, rfl⟩

end Books
end ExpenseLedger
