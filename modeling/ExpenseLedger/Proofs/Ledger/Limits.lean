import ExpenseLedger.Proofs.Ledger.Run
import Mathlib.Algebra.Order.Ring.Int

/-!
# The monthly limit is exact

However operations and the steps of writing calls interleave, what is missing from the limit of a
user is the sum of those of its expenses that were booked with the limit enforced since the limit
was last started over: by making the user, setting the limit, or resetting one limit or all of
them. A call that fails has booked nothing.
-/

namespace ExpenseLedger

/-- The expenses of a user that a log, the newest event first, tells to have been booked with the
limit enforced since the limit of the user was last started over. -/
def chargedSince (user : Int) : List LedgerEvent → List Expense
  | [] => []
  | .allRestarted :: _ => []
  | .restarted other :: log => if other = user then [] else chargedSince user log
  | .booked _ expense enforced :: log =>
    if expense.user = user ∧ enforced = true then expense :: chargedSince user log
    else chargedSince user log

/-- What is left of the limit is not negative and not above the limit, and what is missing has
been spent. -/
structure User.Balanced (row : User) (spent : Int) : Prop where
  nonneg : 0 ≤ row.currentLimit
  le_default : row.currentLimit ≤ row.defaultLimit
  missing : row.defaultLimit - row.currentLimit = spent

namespace Store

/-- The sum of the charged expenses of a user that are in the table. -/
def spent (store : Store) (log : List LedgerEvent) (user : Int) : Int :=
  ((store.expenses.filter fun expense => expense ∈ chargedSince user log).map Expense.amount).sum

/-- The limits of all users are balanced. -/
def Balanced (store : Store) (log : List LedgerEvent) : Prop :=
  ∀ id row, store.user? id = some row → row.Balanced (store.spent log id)

/-- All expenses that a log tells of have a number below the one that comes next. -/
def Numbers (store : Store) (log : List LedgerEvent) : Prop :=
  ∀ caller expense enforced, .booked caller expense enforced ∈ log → expense.id < store.nextExpense

end Store

theorem chargedSince_restarted_self (user : Int) (log : List LedgerEvent) :
    chargedSince user (.restarted user :: log) = [] :=
  if_pos rfl

theorem chargedSince_restarted_of_ne {user other : Int} (different : other ≠ user)
    (log : List LedgerEvent) :
    chargedSince user (.restarted other :: log) = chargedSince user log :=
  if_neg different

theorem chargedSince_booked_of_charged {user : Int} {expense : Expense}
    (own : expense.user = user) (caller : Nat) (log : List LedgerEvent) :
    chargedSince user (.booked caller expense true :: log) = expense :: chargedSince user log :=
  if_pos ⟨own, rfl⟩

theorem chargedSince_booked_of_uncharged {user : Int} {expense : Expense} {enforced : Bool}
    (uncharged : ¬(expense.user = user ∧ enforced = true)) (caller : Nat)
    (log : List LedgerEvent) :
    chargedSince user (.booked caller expense enforced :: log) = chargedSince user log :=
  if_neg uncharged

theorem booked_of_mem_chargedSince {user : Int} {log : List LedgerEvent} {expense : Expense}
    (h : expense ∈ chargedSince user log) :
    expense.user = user ∧ ∃ caller enforced, .booked caller expense enforced ∈ log := by
  induction log with
  | nil => cases h
  | cons event log ih =>
    have older (h : expense ∈ chargedSince user log) :
        expense.user = user ∧ ∃ caller enforced, .booked caller expense enforced ∈ event :: log := by
      obtain ⟨owner, caller, enforced, member⟩ := ih h
      exact ⟨owner, caller, enforced, List.mem_cons_of_mem _ member⟩
    cases event with
    | allRestarted => cases h
    | restarted other =>
      unfold chargedSince at h
      split at h
      · cases h
      · exact older h
    | booked caller booked enforced =>
      unfold chargedSince at h
      split at h
      · next counts =>
        rcases List.mem_cons.1 h with rfl | inLog
        · exact ⟨counts.1, caller, enforced, List.mem_cons_self⟩
        · exact older inLog
      · exact older h

namespace Store

variable {store after : Store} {log : List LedgerEvent} {user : Int}

theorem bookings_of_same (same : after.expenses = store.expenses) : store.bookings after = [] := by
  unfold bookings
  rw [same, List.filter_eq_nil_iff]
  intro expense member new
  simpa using List.all_eq_true.1 new expense member

theorem bookings_withExpense (sound : store.Sound) {middle : Store} {booked : Expense}
    (same : middle.expenses = store.expenses) (new : booked.id = store.nextExpense) :
    store.bookings (middle.withExpense booked) = [booked] := by
  have old : (store.expenses.filter fun expense =>
      store.expenses.all fun old => decide (old.id ≠ expense.id)) = [] :=
    (bookings_of_same rfl : store.bookings store = [])
  have unknown : store.expenses.all (fun old => decide (old.id ≠ booked.id)) = true := by
    simp only [List.all_eq_true, decide_eq_true_eq]
    intro expense member
    have := sound.expenses_lt expense member
    omega
  unfold bookings withExpense
  simp only [same, List.filter_append, old, List.nil_append, List.filter_cons, unknown, if_true,
    List.filter_nil]

theorem spent_eq_zero (h : chargedSince user log = []) : store.spent log user = 0 := by
  have none : (store.expenses.filter fun expense => expense ∈ chargedSince user log) = [] := by
    simp [h]
  unfold spent
  rw [none]
  rfl

theorem spent_congr {log' : List LedgerEvent} (expenses : after.expenses = store.expenses)
    (charged : chargedSince user log' = chargedSince user log) :
    after.spent log' user = store.spent log user := by
  unfold spent
  rw [expenses, charged]

/-- What others take along when they go was not spent by the user. -/
theorem spent_withoutUser (sound : store.Sound) {gone : Int} (different : user ≠ gone) :
    (store.withoutUser gone).spent log user = store.spent log user := by
  unfold spent
  rw [sound.expenses_withoutUser, List.filter_filter]
  refine congrArg (fun rows => (rows.map Expense.amount).sum) (List.filter_congr fun row _ => ?_)
  by_cases counted : row ∈ chargedSince user log
  · have owner := (booked_of_mem_chargedSince counted).1
    rw [← owner] at different
    simp [counted, different]
  · simp [counted]

/-! ## Booking an expense -/

section Booking

variable (sound : store.Sound) (numbers : store.Numbers log) {booked : Expense}
  (new : booked.id = store.nextExpense) {caller : Nat}

include sound new in
/-- An expense that is charged to the user is spent. -/
theorem spent_withExpense_of_charged (own : booked.user = user) :
    (store.withExpense booked).spent (.booked caller booked true :: log) user =
      store.spent log user + booked.amount := by
  have before : (store.expenses.filter fun row => row ∈ booked :: chargedSince user log) =
      store.expenses.filter fun row => row ∈ chargedSince user log := by
    apply List.filter_congr
    intro row member
    have different : row ≠ booked := by
      rintro rfl
      have := sound.expenses_lt row member
      omega
    simp [different]
  unfold spent withExpense
  rw [chargedSince_booked_of_charged own, List.filter_append, before]
  simp

include numbers new in
/-- Any other booked expense changes nothing of what was spent. -/
theorem spent_withExpense_of_uncharged {enforced : Bool}
    (uncharged : ¬(booked.user = user ∧ enforced = true)) :
    (store.withExpense booked).spent (.booked caller booked enforced :: log) user =
      store.spent log user := by
  have unknown : booked ∉ chargedSince user log := by
    intro member
    obtain ⟨-, caller', enforced', inLog⟩ := booked_of_mem_chargedSince member
    have := numbers caller' booked enforced' inLog
    omega
  unfold spent
  rw [chargedSince_booked_of_uncharged uncharged]
  simp [withExpense, unknown]

end Booking

/-! ## Each change keeps the limits balanced -/

namespace Balanced

variable (balanced : store.Balanced log)

include balanced

theorem congr (users : after.users = store.users) (expenses : after.expenses = store.expenses) :
    after.Balanced log := by
  intro id row found
  rw [spent_congr expenses rfl]
  unfold user? at found
  rw [users] at found
  exact balanced id row found

/-- A limit that is started over is whole. -/
theorem putUser_of_restarted (fresh : User) (whole : fresh.currentLimit = fresh.defaultLimit)
    (nonneg : 0 ≤ fresh.defaultLimit) :
    (store.putUser fresh).Balanced (.restarted fresh.id :: log) := by
  intro id row found
  by_cases same : fresh.id = id
  · subst same
    rw [user?_putUser_self] at found
    cases found
    rw [spent_eq_zero (chargedSince_restarted_self _ _)]
    exact ⟨by omega, by omega, by omega⟩
  · rw [user?_putUser_of_ne same] at found
    rw [spent_congr (sameEntries_putUser store fresh).expenses
      (chargedSince_restarted_of_ne same log)]
    exact balanced id row found

theorem withLimitsRestored : store.withLimitsRestored.Balanced (.allRestarted :: log) := by
  intro id row found
  rw [user?_withLimitsRestored] at found
  obtain ⟨old, oldFound, rfl⟩ := Option.map_eq_some_iff.1 found
  have before := balanced id old oldFound
  rw [spent_eq_zero rfl]
  exact ⟨Int.le_trans before.nonneg before.le_default, Int.le_refl _, Int.sub_self _⟩

theorem putUser_of_sameLimits {old changed : User} (found : store.user? old.id = some old)
    (same : changed.id = old.id) (current : changed.currentLimit = old.currentLimit)
    (default : changed.defaultLimit = old.defaultLimit) :
    (store.putUser changed).Balanced log := by
  intro id row found'
  rw [spent_congr (sameEntries_putUser store changed).expenses rfl]
  by_cases own : changed.id = id
  · subst own
    rw [user?_putUser_self] at found'
    cases found'
    have before := balanced old.id old found
    rw [same]
    exact ⟨current ▸ before.nonneg, current ▸ default ▸ before.le_default,
      current ▸ default ▸ before.missing⟩
  · rw [user?_putUser_of_ne own] at found'
    exact balanced id row found'

theorem withoutUser (sound : store.Sound) (gone : Int) :
    (store.withoutUser gone).Balanced log := by
  intro id row found
  by_cases same : id = gone
  · rw [same, user?_withoutUser_self] at found
    cases found
  · rw [user?_withoutUser_of_ne same] at found
    rw [spent_withoutUser sound same]
    exact balanced id row found

theorem withExpense (numbers : store.Numbers log)
    {booked : Expense} (new : booked.id = store.nextExpense) (caller : Nat) :
    (store.withExpense booked).Balanced (.booked caller booked false :: log) := by
  intro id row found
  rw [spent_withExpense_of_uncharged numbers new (by simp)]
  exact balanced id row found

/-- An enforced expense is charged to its user and to nobody else. -/
theorem charged_withExpense (sound : store.Sound) (numbers : store.Numbers log)
    (booked : Expense) (new : booked.id = store.nextExpense) {old : User} (caller : Nat)
    (found : store.user? booked.user = some old) (positive : 0 < booked.amount)
    (enough : 0 ≤ old.currentLimit - booked.amount) :
    ((store.putUser (charged old booked.amount)).withExpense booked).Balanced
      (.booked caller booked true :: log) := by
  have same := sameEntries_putUser store (charged old booked.amount)
  have oldId : old.id = booked.user := user?_id found
  intro id row found'
  change (store.putUser (charged old booked.amount)).user? id = some row at found'
  by_cases own : booked.user = id
  · rw [spent_withExpense_of_charged (sound.of_same same) new own, spent_congr same.expenses rfl]
    have self : (store.putUser (charged old booked.amount)).user? old.id =
        some (charged old booked.amount) := user?_putUser_self store (charged old booked.amount)
    rw [oldId, own, found'] at self
    cases self
    subst own
    have before := balanced booked.user old found
    refine ⟨enough, ?_, ?_⟩
    · have := before.le_default
      show old.currentLimit - booked.amount ≤ old.defaultLimit
      omega
    · have := before.missing
      show old.defaultLimit - (old.currentLimit - booked.amount) = _
      omega
  · have different : (charged old booked.amount).id ≠ id := by
      show old.id ≠ id
      rw [oldId]
      exact own
    have unchanged : ((store.putUser (charged old booked.amount)).withExpense booked).spent
        (.booked caller booked true :: log) id =
          (store.putUser (charged old booked.amount)).spent log id :=
      spent_withExpense_of_uncharged numbers new fun both => own both.1
    rw [user?_putUser_of_ne different] at found'
    rw [unchanged, spent_congr same.expenses rfl]
    exact balanced id row found'

end Balanced

end Store
end ExpenseLedger
