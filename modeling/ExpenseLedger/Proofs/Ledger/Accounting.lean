import Mathlib.Data.List.Induction
import ExpenseLedger.Proofs.Ledger.Limits

/-!
# Limits along a run

The invariant of the ledger: the tables fit together, the limits are balanced, every call that is
about to book holds on to a category of its user and a positive amount, and the table of expenses
and the log tell the same story.
-/

namespace ExpenseLedger

namespace WritingCall

/-- The category that a call has read is one of its user or gone, and the amount that it is about
to book is positive. -/
def Faithful (store : Store) (call : WritingCall) : Prop :=
  match call.stage with
  | .categoryRead _ category => store.Files call.request.user category
  | .priced category base => store.Files call.request.user category ∧ 0 < base
  | _ => True

/-- The expense that the call books once it is priced. -/
def expense (call : WritingCall) (category base : Int) : NewExpense :=
  { user := call.request.user, category, time := call.request.time, amount := base }

/-- The call has booked its expense. -/
def HasBooked (call : WritingCall) : Prop :=
  call.stage = .recorded ∨ call.stage = .finished (.ok ())

theorem Faithful.mono {store after : Store} {call : WritingCall} (h : call.Faithful store)
    (files : ∀ user category, store.Files user category → after.Files user category) :
    call.Faithful after := by
  unfold Faithful at h ⊢
  split
  · next stage =>
    rw [stage] at h
    exact files _ _ h
  · next stage =>
    rw [stage] at h
    exact ⟨files _ _ h.1, h.2⟩
  · trivial

theorem not_hasBooked_of_isUnbooked {call : WritingCall} (h : call.stage.isUnbooked = true) :
    ¬call.HasBooked := by
  rintro (recorded | finished)
  · rw [recorded] at h
    cases h
  · rw [finished] at h
    cases h

end WritingCall

/-! ## Operations -/

namespace LedgerOp
namespace Effect

variable {limit : Int} {books after : Books} {events : List LedgerEvent}
  (effect : Effect limit books events after)

include effect

theorem files (user category : Int) (files : books.store.Files user category) :
    after.store.Files user category := by
  cases effect with
  | nothing => exact files
  | created user currency absent => exact files.of_same (Store.sameEntries_putUser _ _)
  | erased user =>
    have same := Books.sameRows_invalidate { books with store := books.store.withoutUser user } user
    exact (files.withoutUser user).of_same same.toSameEntries
  | numberSpent fits => exact files.withoutNextCategory
  | categoryMade user name fits absent => exact files.withCategory
  | limitSet row amount found positive fits => exact files.of_same (Store.sameEntries_putUser _ _)
  | limitRestored row found => exact files.of_same (Store.sameEntries_putUser _ _)
  | allRestored => exact files.of_same (Store.sameEntries_withLimitsRestored _)
  | currencyChanged row currency found =>
    have same := Books.sameRows_invalidate
      { books with store := books.store.putUser { row with currency } } row.id
    have changed := files.of_same (Store.sameEntries_putUser books.store { row with currency })
    exact changed.of_same same.toSameEntries
  | ratesStored currencies => exact files.of_same ⟨rfl, rfl, rfl, rfl⟩

theorem balanced {log : List LedgerEvent} (positive : 0 < limit) (sound : books.store.Sound)
    (balanced : books.store.Balanced log) : after.store.Balanced (events ++ log) := by
  cases effect with
  | nothing => exact balanced
  | created user currency absent =>
    exact balanced.putUser_of_restarted _ rfl (Int.le_of_lt positive)
  | erased user =>
    have same := Books.sameRows_invalidate { books with store := books.store.withoutUser user } user
    exact (balanced.withoutUser sound user).congr same.users same.expenses
  | numberSpent fits => exact balanced.congr rfl rfl
  | categoryMade user name fits absent => exact balanced.congr rfl rfl
  | limitSet row amount found positive fits =>
    exact balanced.putUser_of_restarted _ rfl (Int.le_of_lt positive)
  | limitRestored row found =>
    have before := balanced row.id row found
    exact balanced.putUser_of_restarted (Store.restored row) rfl
      (Int.le_trans before.nonneg before.le_default)
  | allRestored => exact balanced.withLimitsRestored
  | currencyChanged row currency found =>
    have same := Books.sameRows_invalidate
      { books with store := books.store.putUser { row with currency } } row.id
    have changed : (books.store.putUser { row with currency }).Balanced log :=
      balanced.putUser_of_sameLimits found rfl rfl rfl
    exact changed.congr same.users same.expenses
  | ratesStored currencies => exact balanced.congr rfl rfl

/-- Operations book nothing. -/
theorem unbooked {caller : Nat} {expense : Expense} {enforced : Bool} :
    .booked caller expense enforced ∉ events := by
  cases effect <;> simp

theorem nextExpense : after.store.nextExpense = books.store.nextExpense := by
  cases effect with
  | erased user => exact (Books.sameRows_invalidate _ _).nextExpense
  | currencyChanged row currency found => exact (Books.sameRows_invalidate _ _).nextExpense
  | _ => rfl

theorem mem_expenses {expense : Expense} (h : expense ∈ after.store.expenses) :
    expense ∈ books.store.expenses := by
  cases effect with
  | erased user =>
    rw [(Books.sameRows_invalidate _ _).expenses] at h
    exact (List.mem_filter.1 h).1
  | currencyChanged row currency found =>
    rw [(Books.sameRows_invalidate _ _).expenses] at h
    exact h
  | _ => exact h

end Effect
end LedgerOp

namespace LedgerRun

/-- The invariant of a run. -/
structure Kept (run : LedgerRun) : Prop where
  sound : run.books.store.Sound
  balanced : run.books.store.Balanced run.log
  numbers : run.books.store.Numbers run.log
  faithful : ∀ call ∈ run.calls, call.Faithful run.books.store
  told : ∀ expense ∈ run.books.store.expenses,
    ∃ caller enforced, .booked caller expense enforced ∈ run.log
  bookedBy : ∀ caller expense enforced, .booked caller expense enforced ∈ run.log →
    ∃ call, run.calls[caller]? = some call ∧ call.HasBooked ∧
      expense.user = call.request.user ∧ enforced = call.isEnforced

/-- Limits are exact: they are balanced, the log tells of every expense and by which call it was
booked, a call that has failed has booked nothing, and it changes nothing when it fails. -/
structure LimitsExact (limit : Int) (run : LedgerRun) : Prop where
  balanced : ∀ id row, run.books.store.user? id = some row →
    row.Balanced (run.books.store.spent run.log id)
  told : ∀ expense ∈ run.books.store.expenses,
    ∃ caller call, run.calls[caller]? = some call ∧ expense.user = call.request.user ∧
      .booked caller expense call.isEnforced ∈ run.log
  failed : ∀ caller call e, run.calls[caller]? = some call → call.stage = .finished (.error e) →
    ∀ expense enforced, .booked caller expense enforced ∉ run.log
  failing : ∀ caller call e, (run.step limit (.proceed caller)).calls[caller]? = some call →
    call.stage = .finished (.error e) → (run.step limit (.proceed caller)).books = run.books

variable {limit : Int} {run : LedgerRun}

theorem kept_perform (positive : 0 < limit) (kept : run.Kept) (op : LedgerOp) :
    (run.step limit (.perform op)).Kept := by
  cases performed : op.perform limit run.books with
  | ok result =>
    obtain ⟨events, after⟩ := result
    simp only [step, performed]
    have effect := LedgerOp.perform_effect performed
    exact {
      sound := effect.sound kept.sound
      balanced := effect.balanced positive kept.sound kept.balanced
      numbers := by
        intro caller expense enforced inLog
        rcases List.mem_append.1 inLog with new | old
        · exact absurd new effect.unbooked
        · rw [effect.nextExpense]
          exact kept.numbers caller expense enforced old
      faithful := fun call member => (kept.faithful call member).mono effect.files
      told := by
        intro expense member
        obtain ⟨caller, enforced, inLog⟩ := kept.told expense (effect.mem_expenses member)
        exact ⟨caller, enforced, List.mem_append_right _ inLog⟩
      bookedBy := by
        intro caller expense enforced inLog
        rcases List.mem_append.1 inLog with new | old
        · exact absurd new effect.unbooked
        · exact kept.bookedBy caller expense enforced old }
  | error e =>
    simp only [step, performed]
    exact kept

theorem kept_begin (kept : run.Kept) (request : ExpenseRequest) (now : Instant) :
    (run.step limit (.begin request now)).Kept where
  sound := kept.sound
  balanced := kept.balanced
  numbers := kept.numbers
  faithful := by
    intro call member
    rcases List.mem_append.1 member with old | new
    · exact kept.faithful call old
    · rw [List.mem_singleton.1 new]
      trivial
  told := kept.told
  bookedBy := by
    intro caller expense enforced inLog
    obtain ⟨call, found, rest⟩ := kept.bookedBy caller expense enforced inLog
    exact ⟨call, List.getElem?_append_left (List.getElem?_eq_some_iff.1 found).1 ▸ found, rest⟩

theorem kept_outage (kept : run.Kept) (tables : List Table) :
    (run.step limit (.outage tables)).Kept where
  sound := kept.sound.of_same ⟨rfl, rfl, rfl, rfl⟩
  balanced := kept.balanced.congr rfl rfl
  numbers := kept.numbers
  faithful := kept.faithful
  told := kept.told
  bookedBy := kept.bookedBy

/-! ## Steps of writing an expense -/

/-- What was booked was booked by the calls that stand where they stood. -/
theorem Kept.bookedBy_set (kept : run.Kept) {caller : Nat} {call : WritingCall} {stage : Writing}
    (found : run.calls[caller]? = some call)
    (booked : call.HasBooked → WritingCall.HasBooked { call with stage })
    {other : Nat} {expense : Expense} {enforced : Bool}
    (inLog : .booked other expense enforced ∈ run.log) :
    ∃ writer, (run.calls.set caller { call with stage })[other]? = some writer ∧
      writer.HasBooked ∧ expense.user = writer.request.user ∧ enforced = writer.isEnforced := by
  obtain ⟨old, oldFound, hasBooked, rest⟩ := kept.bookedBy other expense enforced inLog
  by_cases own : other = caller
  · subst own
    rw [found] at oldFound
    cases oldFound
    have inside := (List.getElem?_eq_some_iff.1 found).1
    exact ⟨_, List.getElem?_set_self inside, booked hasBooked, rest⟩
  · exact ⟨old, (List.getElem?_set_ne (Ne.symm own)).trans oldFound, hasBooked, rest⟩

/-- A step that changes neither users nor expenses keeps the invariant. -/
theorem kept_of_quiet (kept : run.Kept) {caller : Nat} {call : WritingCall} {stage : Writing}
    {books : Books} (found : run.calls[caller]? = some call)
    (same : Store.SameRows run.books.store books.store)
    (faithful : WritingCall.Faithful books.store { call with stage })
    (booked : call.HasBooked → WritingCall.HasBooked { call with stage }) :
    Kept { books, calls := run.calls.set caller { call with stage }, log := run.log } where
  sound := kept.sound.of_same same.toSameEntries
  balanced := kept.balanced.congr same.users same.expenses
  numbers := by
    intro other expense enforced inLog
    show expense.id < books.store.nextExpense
    rw [same.nextExpense]
    exact kept.numbers other expense enforced inLog
  faithful := by
    intro other member
    rcases List.mem_or_eq_of_mem_set member with old | rfl
    · exact (kept.faithful other old).mono fun _ _ files => files.of_same same.toSameEntries
    · exact faithful
  told := by
    show ∀ expense ∈ books.store.expenses, _
    rw [same.expenses]
    exact kept.told
  bookedBy := fun _ _ _ inLog => kept.bookedBy_set found booked inLog

/-- Booking charges the limit of the user if it is enforced, and then adds the expense. -/
theorem Kept.charging (kept : run.Kept) (caller : Nat) {call : WritingCall}
    {category base : Int} {after : Store} (positive : 0 < base)
    (booked : call.request.record call.now category base run.books.store = .ok after) :
    (∃ row, run.books.store.category? category = some row) ∧
    ∃ middle : Store, Store.SameEntries run.books.store middle ∧
      after = middle.withExpense (run.books.store.nextExpenseRow (call.expense category base)) ∧
      after.Balanced (.booked caller (run.books.store.nextExpenseRow (call.expense category base))
        call.isEnforced :: run.log) := by
  obtain ⟨old, oldFound, categoryFound, change⟩ := Store.insertExpense_eq_ok booked
  refine ⟨categoryFound, ?_⟩
  rcases change with ⟨free, rfl⟩ | ⟨enforced, enough, rfl⟩
  · have unenforced : call.isEnforced = false := free
    refine ⟨run.books.store, .refl _, rfl, ?_⟩
    rw [unenforced]
    exact kept.balanced.withExpense kept.numbers rfl caller
  · have enforced : call.isEnforced = true := enforced
    refine ⟨run.books.store.putUser (Store.charged old base), Store.sameEntries_putUser _ _,
      rfl, ?_⟩
    rw [enforced]
    exact kept.balanced.charged_withExpense kept.sound kept.numbers
      (run.books.store.nextExpenseRow (call.expense category base)) rfl caller oldFound positive
      enough

/-- The step that books an expense keeps the invariant. -/
theorem kept_of_recorded (kept : run.Kept) {caller : Nat} {call : WritingCall}
    {category base : Int} {after : Store} (found : run.calls[caller]? = some call)
    (stage : call.stage = .priced category base)
    (booked : call.request.record call.now category base run.books.store = .ok after) :
    ∃ row : Expense, run.books.store.bookings after = [row] ∧
      Kept {
        books := { run.books with store := after }
        calls := run.calls.set caller { call with stage := .recorded }
        log := .booked caller row call.isEnforced :: run.log } := by
  have held := kept.faithful call (List.mem_of_getElem? found)
  unfold WritingCall.Faithful at held
  rw [stage] at held
  obtain ⟨files, positive⟩ := held
  obtain ⟨⟨categoryRow, categoryFound⟩, middle, same, rfl, balanced⟩ :=
    kept.charging caller positive booked
  refine ⟨_, Store.bookings_withExpense kept.sound same.expenses rfl, ?_⟩
  have next : middle.nextExpense = run.books.store.nextExpense := same.nextExpense
  exact {
    sound := by
      refine (kept.sound.of_same same).withExpense next.symm ?_
      rw [same.categories]
      exact files.exists_row categoryFound
    balanced := balanced
    numbers := by
      intro other expense enforced inLog
      show expense.id < middle.nextExpense + 1
      rcases List.mem_cons.1 inLog with now | before
      · cases now
        show run.books.store.nextExpense < middle.nextExpense + 1
        omega
      · have := kept.numbers other expense enforced before
        omega
    faithful := by
      intro other member
      rcases List.mem_or_eq_of_mem_set member with before | rfl
      · exact (kept.faithful other before).mono fun _ _ files =>
          (files.of_same same).withExpense
      · trivial
    told := by
      intro expense member
      rcases List.mem_append.1 member with before | last
      · rw [same.expenses] at before
        obtain ⟨other, enforced, inLog⟩ := kept.told expense before
        exact ⟨other, enforced, List.mem_cons_of_mem _ inLog⟩
      · rw [List.mem_singleton.1 last]
        exact ⟨caller, call.isEnforced, List.mem_cons_self⟩
    bookedBy := by
      intro other expense enforced inLog
      rcases List.mem_cons.1 inLog with now | before
      · cases now
        have inside := (List.getElem?_eq_some_iff.1 found).1
        exact ⟨_, List.getElem?_set_self inside, Or.inl rfl, rfl, rfl⟩
      · exact kept.bookedBy_set found (fun _ => Or.inl rfl) before }

theorem kept_proceed (kept : run.Kept) (caller : Nat) : (run.step limit (.proceed caller)).Kept := by
  cases found : run.calls[caller]? with
  | none =>
    simp only [step, found]
    exact kept
  | some call =>
    have held := kept.faithful call (List.mem_of_getElem? found)
    have effect := Writing.step_effect call.request call.now run.books call.stage
    simp only [step, found]
    generalize call.stage.step call.request call.now run.books = result at effect
    obtain ⟨stage, books⟩ := result
    simp only at effect
    generalize before : call.stage = first at effect
    have unbooked (h : first.isUnbooked = true) : ¬call.HasBooked :=
      WritingCall.not_hasBooked_of_isUnbooked (before ▸ h)
    unfold WritingCall.Faithful at held
    cases effect with
    | refused _ e early =>
      rw [Store.bookings_of_same rfl]
      exact kept_of_quiet kept found (.refl _) trivial fun h => absurd h (unbooked early)
    | userRead currency =>
      rw [Store.bookings_of_same rfl]
      exact kept_of_quiet kept found (.refl _) trivial fun h => absurd h (unbooked rfl)
    | categoryRead currency row named =>
      rw [Store.bookings_of_same rfl]
      exact kept_of_quiet kept found (.refl _) (Store.Files.of_named kept.sound named)
        fun h => absurd h (unbooked rfl)
    | priced currency category base positive fits =>
      rw [before] at held
      rw [Store.bookings_of_same rfl]
      exact kept_of_quiet kept found (.refl _) ⟨held, positive⟩ fun h => absurd h (unbooked rfl)
    | recorded category base after booked =>
      obtain ⟨row, booking, kept'⟩ := kept_of_recorded kept found before booked
      rw [booking]
      exact kept'
    | dropped =>
      have same := Books.sameRows_invalidate run.books call.request.user
      rw [Store.bookings_of_same same.expenses]
      exact kept_of_quiet kept found same trivial fun _ => Or.inr rfl
    | ended result =>
      rw [Store.bookings_of_same rfl]
      refine kept_of_quiet kept found (.refl _) trivial fun h => Or.inr ?_
      rcases h with recorded | finished
      · rw [before] at recorded
        cases recorded
      · exact before.symm.trans finished

theorem kept_step (positive : 0 < limit) (kept : run.Kept) (action : LedgerAction) :
    (run.step limit action).Kept := by
  cases action with
  | perform op => exact kept_perform positive kept op
  | begin request now => exact kept_begin kept request now
  | proceed caller => exact kept_proceed kept caller
  | outage tables => exact kept_outage kept tables

theorem kept_of_empty {start : Books} (noUsers : start.store.users = [])
    (noCategories : start.store.categories = []) (noExpenses : start.store.expenses = []) :
    Kept { books := start } where
  sound := .of_empty noCategories noExpenses
  balanced := by
    intro id row found
    unfold Store.user? at found
    rw [noUsers] at found
    cases found
  numbers := by
    intro caller expense enforced inLog
    cases inLog
  faithful := by
    intro call member
    cases member
  told := by
    intro expense member
    have none : expense ∈ start.store.expenses := member
    rw [noExpenses] at none
    cases none
  bookedBy := by
    intro caller expense enforced inLog
    cases inLog

/-- A step that ends a call with an error leaves the books as they were. -/
theorem books_of_failing {caller : Nat} {call : WritingCall} {e : Error}
    (found : (run.step limit (.proceed caller)).calls[caller]? = some call)
    (failed : call.stage = .finished (.error e)) :
    (run.step limit (.proceed caller)).books = run.books := by
  cases here : run.calls[caller]? with
  | none => simp only [step, here]
  | some old =>
    simp only [step, here] at found ⊢
    rw [List.getElem?_set_self (List.getElem?_eq_some_iff.1 here).1] at found
    cases found
    exact Writing.books_of_step_refused failed

theorem Kept.limitsExact (kept : run.Kept) : run.LimitsExact limit where
  balanced := kept.balanced
  told := by
    intro expense member
    obtain ⟨caller, enforced, inLog⟩ := kept.told expense member
    obtain ⟨call, found, -, owner, rfl⟩ := kept.bookedBy caller expense enforced inLog
    exact ⟨caller, call, found, owner, inLog⟩
  failed := by
    intro caller call e found failed expense enforced inLog
    obtain ⟨call', found', hasBooked, -⟩ := kept.bookedBy caller expense enforced inLog
    rw [found] at found'
    cases found'
    rcases hasBooked with recorded | finished
    · rw [failed] at recorded
      cases recorded
    · rw [failed] at finished
      cases finished
  failing := fun _ _ _ found failed => books_of_failing found failed

end LedgerRun

/-- With a positive limit configured, limits are exact after every run that begins without users,
categories and expenses. -/
theorem limits_exact {limit : Int} (positive : 0 < limit) {start : Books}
    (noUsers : start.store.users = []) (noCategories : start.store.categories = [])
    (noExpenses : start.store.expenses = []) (actions : List LedgerAction) :
    (LedgerRun.ofActions limit start actions).LimitsExact limit := by
  have kept : (LedgerRun.ofActions limit start actions).Kept :=
    List.foldlRecOn actions (LedgerRun.step limit)
      (LedgerRun.kept_of_empty noUsers noCategories noExpenses)
      fun _ kept action _ => LedgerRun.kept_step positive kept action
  exact kept.limitsExact

/-- Two callers each write 60 of a limit of 100, and take turns. -/
def twoWriters : List LedgerAction :=
  let request : ExpenseRequest :=
    { user := 1, category := "food", amount := ⟨60⟩, time := .epoch }
  [.perform (.addUser 1), .perform (.addCategory 1 "food"), .begin request .epoch,
    .begin request .epoch] ++
    (List.replicate 5 [.proceed 0, .proceed 1]).flatten

/-- The second one is refused. -/
theorem twoWriters_limits_exact :
    0 < (100 : Int) ∧ newBooks.store.users = [] ∧ newBooks.store.categories = [] ∧
      newBooks.store.expenses = [] ∧
      (LedgerRun.ofActions 100 newBooks twoWriters).LimitsExact 100 ∧
      (LedgerRun.ofActions 100 newBooks twoWriters).books.store.users =
        [{ id := 1, currency := 0, defaultLimit := 100, currentLimit := 40 }] :=
  ⟨by decide, rfl, rfl, rfl, limits_exact (by decide) rfl rfl rfl twoWriters, by decide +kernel⟩

end ExpenseLedger
