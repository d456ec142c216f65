import ExpenseLedger.Proofs.Cache.Entries

/-!
# Regular books

What the tables and the cache keep up whatever the ledger does: users are in the order of their ids,
64 bits hold their limits, and whatever is cached is cached under the key of a user.
-/

namespace ExpenseLedger

/-- 64 bits hold the limits of a user. -/
structure User.Limited (row : User) : Prop where
  defaultLimit : FitsInt64 row.defaultLimit
  currentLimit : FitsInt64 row.currentLimit

namespace Store

variable {store after : Store}

/-- A charge is checked against the range. -/
theorem limited_of_charge {user amount : Int} {row : User} (found : store.user? user = some row)
    (limited : row.Limited) (h : store.charge user amount = .ok after) :
    (charged row amount).Limited := by
  obtain ⟨-, -, h⟩ := Outcome.bind_eq_ok.1 h
  simp only [found] at h
  obtain ⟨changed, checked, -⟩ := Outcome.bind_eq_ok.1 h
  split at checked
  · cases checked
  · next fits => exact ⟨limited.defaultLimit, Decidable.not_not.1 fits⟩

/-- A booked expense puts at most its charged user in place, and leaves the cache alone. -/
theorem users_of_insertExpense {expense : NewExpense} {enforce : Bool}
    (h : store.insertExpense expense enforce = .ok after) :
    after.cachedReports = store.cachedReports ∧ (after.users = store.users ∨
      ∃ row, store.user? expense.user = some row ∧ (row.Limited → (charged row expense.amount).Limited) ∧
        after.users = (store.putUser (charged row expense.amount)).users) := by
  cases enforce with
  | false =>
    change store.addExpense expense = .ok after at h
    obtain ⟨-, -, rfl⟩ := addExpense_eq_ok h
    exact ⟨rfl, Or.inl rfl⟩
  | true =>
    change (store.charge expense.user expense.amount >>= fun charged =>
      charged.addExpense expense) = .ok after at h
    obtain ⟨middle, charging, h⟩ := Outcome.bind_eq_ok.1 h
    obtain ⟨row, found, -, rfl⟩ := charge_eq_ok charging
    obtain ⟨-, -, rfl⟩ := addExpense_eq_ok h
    exact ⟨rfl, Or.inr ⟨row, found, fun limited => limited_of_charge found limited charging, rfl⟩⟩

end Store

namespace Books

structure Regular (books : Books) : Prop where
  users : Rows.Ascending User.id books.store.users
  limits : ∀ row ∈ books.store.users, row.Limited
  ordered : books.CacheOrdered
  keyed : ∀ entry ∈ books.entries, ∃ user, entry.IsOf user

namespace Regular

variable {books after : Books} (regular : books.Regular)

include regular

theorem limited {user : Int} {row : User} (found : books.store.user? user = some row) :
    row.Limited :=
  regular.limits row (Rows.get?_eq_some found).1

/-- A change of other tables. -/
theorem of_same (users : after.store.users = books.store.users) (cache : after.cache = books.cache)
    (cachedReports : after.store.cachedReports = books.store.cachedReports) : after.Regular where
  users := users ▸ regular.users
  limits := users ▸ regular.limits
  ordered := regular.ordered.of_same cache
  keyed := entries_of_same cache cachedReports ▸ regular.keyed

theorem withUsers {users : List User} (ascending : Rows.Ascending User.id users)
    (limits : ∀ row ∈ users, row.Limited) :
    Regular { books with store := { books.store with users } } where
  users := ascending
  limits := limits
  ordered := regular.ordered
  keyed := regular.keyed

theorem putUser {row : User} (limited : row.Limited) :
    Regular { books with store := books.store.putUser row } := by
  refine regular.withUsers ?_ fun other member => ?_
  · exact Rows.Ascending.put Int.lt_trans (fun different notLess => by omega) regular.users
  · rcases Rows.mem_put member with rfl | old
    · exact limited
    · exact regular.limits other old

theorem withoutUser (user : Int) :
    Regular { books with store := books.store.withoutUser user } :=
  (regular.withUsers (regular.users.filter _) fun row member =>
    regular.limits row (List.mem_filter.1 member).1).of_same rfl rfl rfl

theorem withLimitsRestored :
    Regular { books with store := books.store.withLimitsRestored } := by
  refine regular.withUsers (List.pairwise_map.2 regular.users) fun row member => ?_
  obtain ⟨old, inTable, rfl⟩ := List.mem_map.1 member
  exact ⟨(regular.limits old inTable).defaultLimit, (regular.limits old inTable).defaultLimit⟩

/-- A change of the cache that keeps it in order. -/
theorem of_cache (users : after.store.users = books.store.users) (ordered : after.CacheOrdered)
    (keyed : ∀ entry ∈ after.entries, entry ∈ books.entries ∨ ∃ user, entry.IsOf user) :
    after.Regular where
  users := users ▸ regular.users
  limits := users ▸ regular.limits
  ordered := ordered
  keyed := fun entry member => (keyed entry member).elim (regular.keyed entry) id

theorem invalidate (user : Int) : (books.invalidate user).Regular :=
  regular.of_cache (books.sameRows_invalidate user).users (regular.ordered.invalidate user)
    fun _ member => Or.inl (books.invalidate_addsNoEntry user member)

end Regular
end Books

/-! ## The ledger keeps the books regular -/

theorem LedgerOp.Effect.regular {limit : Int} {books after : Books} {events : List LedgerEvent}
    (effect : LedgerOp.Effect limit books events after) (fits : FitsInt64 limit)
    (regular : books.Regular) : after.Regular := by
  cases effect with
  | nothing => exact regular
  | created user currency absent =>
    exact regular.putUser ⟨fits, fits⟩
  | erased user => exact (regular.withoutUser user).invalidate user
  | numberSpent _ => exact regular.of_same rfl rfl rfl
  | categoryMade user name _ absent => exact regular.of_same rfl rfl rfl
  | limitSet row amount found positive fits =>
    exact regular.putUser ⟨fits, fits⟩
  | limitRestored row found =>
    have limited := regular.limited found
    exact regular.putUser ⟨limited.defaultLimit, limited.defaultLimit⟩
  | allRestored => exact regular.withLimitsRestored
  | currencyChanged row currency found =>
    have limited := regular.limited found
    have priced : User.Limited { row with currency } :=
      ⟨limited.defaultLimit, limited.currentLimit⟩
    exact (regular.putUser priced).invalidate row.id
  | ratesStored currencies => exact regular.of_same rfl rfl rfl

theorem Writing.Effect.regular {request : ExpenseRequest} {now : Instant} {books after : Books}
    {stage next : Writing} (effect : Writing.Effect request now books stage next after)
    (regular : books.Regular) : after.Regular := by
  cases effect with
  | recorded category base store booked =>
    obtain ⟨cached, users | ⟨row, found, kept, users⟩⟩ := Store.users_of_insertExpense booked
    · exact regular.of_same users rfl cached
    · exact (regular.putUser (kept (regular.limited found))).of_same users rfl cached
  | dropped => exact regular.invalidate request.user
  | _ => exact regular

theorem LedgerRun.step_regular {limit : Int} (fits : FitsInt64 limit) {run : LedgerRun}
    (regular : run.books.Regular) (action : LedgerAction) :
    (run.step limit action).books.Regular := by
  cases action with
  | perform op =>
    cases performed : op.perform limit run.books with
    | ok result =>
      simp only [step, performed]
      exact (LedgerOp.perform_effect performed).regular fits regular
    | error e =>
      simp only [step, performed]
      exact regular
  | begin request now => exact regular
  | proceed caller =>
    cases found : run.calls[caller]? with
    | none =>
      simp only [step, found]
      exact regular
    | some call =>
      simp only [step, found]
      exact (Writing.step_effect call.request call.now run.books call.stage).regular regular
  | outage tables => exact regular.of_same rfl rfl rfl

end ExpenseLedger
