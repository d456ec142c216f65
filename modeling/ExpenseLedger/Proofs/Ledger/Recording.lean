import ExpenseLedger.Proofs.Ledger.Accounting
import ExpenseLedger.Proofs.Ledger.History

/-!
# What a user has booked since it was erased

Beside a run stand the expenses that one user has booked since it was last erased, with the calls that
booked them (`Recording`). The table holds them and no others of the user, in the order of booking: a call
may look up its category long before it books, but the number of a category never comes to belong to
another one (`Store.KeepsCategory`).
-/

namespace ExpenseLedger

/-! ## Categories -/

namespace Store

/-- Categories of the second tables are old ones, or have numbers that were not given before. -/
structure GrowsCategories (store after : Store) : Prop where
  next : store.nextCategory ≤ after.nextCategory
  rows : ∀ row ∈ after.categories, row ∈ store.categories ∨ store.nextCategory ≤ row.id

/-- The number of the category has been given, and no other category has it. -/
def KeepsCategory (store : Store) (category : Category) : Prop :=
  category.id < store.nextCategory ∧
    ∀ row ∈ store.categories, row.id = category.id → row = category

variable {store middle after : Store}

theorem GrowsCategories.of_same (categories : after.categories = store.categories)
    (next : after.nextCategory = store.nextCategory) : store.GrowsCategories after :=
  ⟨next.ge, fun _ member => Or.inl (categories ▸ member)⟩

theorem KeepsCategory.mono {category : Category} (keeps : store.KeepsCategory category)
    (grows : store.GrowsCategories after) : after.KeepsCategory category := by
  obtain ⟨given, only⟩ := keeps
  refine ⟨Int.lt_of_lt_of_le given grows.next, fun row member same => ?_⟩
  rcases grows.rows row member with old | new
  · exact only row old same
  · omega

theorem Sound.keepsCategory (sound : store.Sound) {category : Category}
    (member : category ∈ store.categories) : store.KeepsCategory category :=
  ⟨sound.categories_lt category member,
    fun _ inTable same => sound.ascending.eq_of_key_eq inTable member same⟩

end Store

theorem LedgerOp.Effect.growsCategories {limit : Int} {books after : Books}
    {events : List LedgerEvent} (effect : LedgerOp.Effect limit books events after) :
    books.store.GrowsCategories after.store := by
  cases effect with
  | erased user =>
    have same := Books.sameRows_invalidate { books with store := books.store.withoutUser user } user
    refine ⟨same.nextCategory.ge, fun row member => ?_⟩
    rw [same.categories] at member
    exact Or.inl (List.mem_filter.1 member).1
  | numberSpent fits => exact ⟨Int.le_of_lt (Int.lt_succ _), fun _ member => Or.inl member⟩
  | categoryMade user name fits absent =>
    refine ⟨Int.le_of_lt (Int.lt_succ _), fun row member => ?_⟩
    rcases List.mem_append.1 member with old | new
    · exact Or.inl old
    · rw [List.mem_singleton.1 new]
      exact Or.inr (Int.le_refl _)
  | currencyChanged row currency found =>
    have same := Books.sameRows_invalidate
      { books with store := books.store.putUser { row with currency } } row.id
    exact .of_same same.categories same.nextCategory
  | _ => exact .of_same rfl rfl

/-! ## Writing -/

namespace WritingCall

/-- What the call has read, or is about to book under, is the category that its request names, or was
it before the user was erased. -/
def Holds (store : Store) (call : WritingCall) : Prop :=
  match call.stage with
  | .categoryRead _ id | .priced id _ => ∃ category : Category, category.id = id ∧
      category.user = call.request.user ∧ category.name = call.request.categoryName ∧
      store.KeepsCategory category
  | _ => True

theorem Holds.mono {store after : Store} {call : WritingCall} (holds : call.Holds store)
    (grows : store.GrowsCategories after) : call.Holds after := by
  unfold Holds at holds ⊢
  split <;> rename_i stage <;> simp only [stage] at holds
  · obtain ⟨category, id, user, name, keeps⟩ := holds
    exact ⟨category, id, user, name, keeps.mono grows⟩
  · obtain ⟨category, id, user, name, keeps⟩ := holds
    exact ⟨category, id, user, name, keeps.mono grows⟩
  · trivial

/-- An expense is booked under the category that the call holds on to, if that is still there. -/
theorem Holds.exists_booking {store after : Store} {call : WritingCall} {category base : Int}
    (holds : call.Holds store) (stage : call.stage = .priced category base)
    (booked : call.request.record call.now category base store = .ok after) :
    ∃ (middle : Store) (named : Category), Store.SameEntries store middle ∧
      after = middle.withExpense (store.nextExpenseRow (call.expense category base)) ∧
      store.category? category = some named ∧ named.user = call.request.user ∧
      named.name = call.request.categoryName := by
  unfold Holds at holds
  simp only [stage] at holds
  obtain ⟨named, rfl, owner, name, -, only⟩ := holds
  obtain ⟨old, -, ⟨there, inTable⟩, change⟩ := Store.insertExpense_eq_ok booked
  have inTable : store.category? named.id = some there := inTable
  obtain ⟨member, id⟩ := Store.category?_eq_some inTable
  obtain rfl := only there member id
  rcases change with ⟨-, rfl⟩ | ⟨-, -, rfl⟩
  · exact ⟨store, there, .refl _, rfl, inTable, owner, name⟩
  · exact ⟨_, there, Store.sameEntries_putUser _ _, rfl, inTable, owner, name⟩

end WritingCall

/-! ## Recordings -/

/-- A run, and what one user has booked since it was last erased, the oldest first, with the callers
that booked it. -/
structure Recording where
  run : LedgerRun
  booked : List (Nat × Expense) := []

namespace Recording

/-- The action erases the user. -/
def erases (limit user : Int) (run : LedgerRun) : LedgerAction → Bool
  | .perform (.resetUser gone) =>
    decide (gone = user) && ((LedgerOp.resetUser gone).perform limit run.books).isOk
  | _ => false

/-- What the user books by the action. -/
def bookedBy (limit user : Int) (run : LedgerRun) : LedgerAction → List (Nat × Expense)
  | .proceed caller =>
    ((run.books.store.bookings (run.step limit (.proceed caller)).books.store).filter
      fun expense => expense.user = user).map fun expense => (caller, expense)
  | _ => []

def step (limit user : Int) (recording : Recording) (action : LedgerAction) : Recording where
  run := recording.run.step limit action
  booked :=
    if erases limit user recording.run action then []
    else recording.booked ++ bookedBy limit user recording.run action

/-- The recording of a list of actions, from some books on. -/
def ofActions (limit user : Int) (start : Books) (actions : List LedgerAction) : Recording :=
  actions.foldl (step limit user) { run := { books := start } }

theorem run_ofActions (limit user : Int) (start : Books) (actions : List LedgerAction) :
    (ofActions limit user start actions).run = LedgerRun.ofActions limit start actions :=
  (List.foldl_hom Recording.run fun _ _ => rfl).symm

/-- The entry is about what a call has booked: it has the trimmed name of the category and the time in
whole seconds that the call was given, and the amount that the log tells. -/
def Tells (user : Int) (run : LedgerRun) (booking : Nat × Expense) (entry : Entry) : Prop :=
  ∃ call, run.calls[booking.1]? = some call ∧ call.HasBooked ∧ call.request.user = user ∧
    .booked booking.1 booking.2 call.isEnforced ∈ run.log ∧
    entry = { name := trim call.request.category, time := call.request.time.seconds
              amount := booking.2.amount }

/-- The tables fit together, calls hold on to the categories that they were given, and the booked rows
of the user are what it has booked since it was last erased. -/
structure Kept (user : Int) (recording : Recording) : Prop where
  sound : recording.run.books.store.Sound
  holds : ∀ call ∈ recording.run.calls, call.Holds recording.run.books.store
  told : List.Forall₂ (Tells user recording.run) recording.booked
    ((recording.run.books.store.bookedRows user).map ExpenseRow.entry)

variable {limit user : Int} {recording : Recording}

/-! ### What a step keeps -/

/-- A call that has booked stays so. -/
theorem exists_call_step (limit : Int) {run : LedgerRun} {caller : Nat} {call : WritingCall}
    (found : run.calls[caller]? = some call) (booked : call.HasBooked) (action : LedgerAction) :
    ∃ stage, (run.step limit action).calls[caller]? = some { call with stage } ∧
      WritingCall.HasBooked { call with stage } := by
  cases action with
  | perform op =>
    refine ⟨call.stage, ?_, booked⟩
    simp only [LedgerRun.step]
    split <;> exact found
  | begin request now =>
    exact ⟨call.stage, (List.getElem?_append_left (List.getElem?_eq_some_iff.1 found).1).trans found,
      booked⟩
  | outage tables => exact ⟨call.stage, found, booked⟩
  | proceed other =>
    cases here : run.calls[other]? with
    | none =>
      simp only [LedgerRun.step, here]
      exact ⟨call.stage, found, booked⟩
    | some writer =>
      simp only [LedgerRun.step, here]
      by_cases own : other = caller
      · subst own
        obtain rfl := Option.some.inj (here.symm.trans found)
        refine ⟨_, List.getElem?_set_self (List.getElem?_eq_some_iff.1 found).1, ?_⟩
        have effect := Writing.step_effect writer.request writer.now run.books writer.stage
        generalize writer.stage.step writer.request writer.now run.books = result at effect
        obtain ⟨stage, books⟩ := result
        simp only at effect
        rcases booked with recorded | finished
        · rw [recorded] at effect
          cases effect with
          | dropped => exact Or.inr rfl
          | refused _ e unbooked => cases unbooked
        · rw [finished] at effect
          cases effect with
          | ended => exact Or.inr rfl
          | refused _ e unbooked => cases unbooked
      · exact ⟨call.stage, (List.getElem?_set_ne own).trans found, booked⟩

theorem mem_log_step (limit : Int) {run : LedgerRun} {event : LedgerEvent} (member : event ∈ run.log)
    (action : LedgerAction) : event ∈ (run.step limit action).log := by
  cases action with
  | perform op =>
    simp only [LedgerRun.step]
    split
    · exact List.mem_append_right _ member
    · exact member
  | proceed caller =>
    simp only [LedgerRun.step]
    split
    · exact member
    · exact List.mem_append_right _ member
  | _ => exact member

theorem Tells.step {run : LedgerRun} {booking : Nat × Expense} {entry : Entry}
    (tells : Tells user run booking entry) (limit : Int) (action : LedgerAction) :
    Tells user (run.step limit action) booking entry := by
  obtain ⟨call, found, booked, own, inLog, told⟩ := tells
  obtain ⟨stage, stays, stillBooked⟩ := exists_call_step limit found booked action
  exact ⟨_, stays, stillBooked, own, mem_log_step limit inLog action, told⟩

/-- Where a step adds to the rows of the user what the user books by it, the rows are still told. -/
theorem Kept.told_step (kept : recording.Kept user) (limit : Int) {action : LedgerAction}
    (erases : erases limit user recording.run action = false) (added : List Entry)
    (new : List.Forall₂ (Tells user (recording.run.step limit action))
      (bookedBy limit user recording.run action) added)
    (rows : ((recording.run.step limit action).books.store.bookedRows user).map ExpenseRow.entry =
      (recording.run.books.store.bookedRows user).map ExpenseRow.entry ++ added) :
    List.Forall₂ (Tells user (recording.step limit user action).run)
      (recording.step limit user action).booked
      (((recording.step limit user action).run.books.store.bookedRows user).map
        ExpenseRow.entry) := by
  have old := kept.told.imp fun _ _ tells => tells.step limit action
  simp only [step, erases, Bool.false_eq_true, if_false, rows]
  exact List.rel_append old new

/-- A step by which the user books nothing, and which leaves its rows as they are. -/
theorem Kept.told_of_same (kept : recording.Kept user) (limit : Int) {action : LedgerAction}
    (erases : erases limit user recording.run action = false)
    (nothing : bookedBy limit user recording.run action = [])
    (rows : (recording.run.step limit action).books.store.bookedRows user =
      recording.run.books.store.bookedRows user) :
    List.Forall₂ (Tells user (recording.step limit user action).run)
      (recording.step limit user action).booked
      (((recording.step limit user action).run.books.store.bookedRows user).map
        ExpenseRow.entry) := by
  refine kept.told_step limit erases [] ?_ ?_
  · rw [nothing]
    exact .nil
  · rw [rows, List.append_nil]

theorem kept_perform (limit : Int) (kept : recording.Kept user) (op : LedgerOp) :
    (recording.step limit user (.perform op)).Kept user := by
  cases performed : op.perform limit recording.run.books with
  | error e =>
    have same : recording.run.step limit (.perform op) = recording.run := by
      simp only [LedgerRun.step, performed]
    refine ⟨?_, ?_, kept.told_of_same limit ?_ rfl (by rw [same])⟩
    · show (recording.run.step limit (.perform op)).books.store.Sound
      rw [same]
      exact kept.sound
    · show ∀ call ∈ (recording.run.step limit (.perform op)).calls, _
      simp only [step, same]
      exact kept.holds
    · cases op with
      | resetUser gone =>
        simp only [erases, performed]
        exact Bool.and_false _
      | _ => rfl
  | ok result =>
    obtain ⟨events, after⟩ := result
    have same : recording.run.step limit (.perform op) =
        { recording.run with books := after, log := events ++ recording.run.log } := by
      simp only [LedgerRun.step, performed]
    have effect := LedgerOp.perform_effect performed
    refine ⟨?_, ?_, ?_⟩
    · simp only [step, same]
      exact effect.sound kept.sound
    · simp only [step, same]
      exact fun call member => (kept.holds call member).mono effect.growsCategories
    · by_cases own : op = .resetUser user
      · subst own
        have erased : erases limit user recording.run (.perform (.resetUser user)) = true := by
          simp only [erases, performed, decide_true, Bool.true_and]
          rfl
        simp only [step, erased, if_true, same, LedgerOp.bookedRows_of_resetUser kept.sound performed]
        exact .nil
      · refine kept.told_of_same limit ?_ rfl ?_
        · cases op with
          | resetUser gone =>
            have different : gone ≠ user := fun same => own (congrArg _ same)
            simp only [erases, different, decide_false, Bool.false_and]
          | _ => rfl
        · rw [same]
          exact LedgerOp.bookedRows_of_perform kept.sound performed own

/-- A step of a call that changes no rows. -/
theorem kept_of_quiet (limit : Int) (kept : recording.Kept user) {caller : Nat} {call : WritingCall}
    {stage : Writing} {books : Books} (found : recording.run.calls[caller]? = some call)
    (stepped : call.stage.step call.request call.now recording.run.books = (stage, books))
    (same : Store.SameRows recording.run.books.store books.store)
    (holds : WritingCall.Holds books.store { call with stage }) :
    (recording.step limit user (.proceed caller)).Kept user := by
  have none : recording.run.books.store.bookings books.store = [] :=
    Store.bookings_of_same same.expenses
  have ran : recording.run.step limit (.proceed caller) =
      { recording.run with
        books := books
        calls := recording.run.calls.set caller { call with stage } } := by
    simp only [LedgerRun.step, found, stepped, none]
    rfl
  refine ⟨?_, ?_, kept.told_of_same limit rfl ?_ ?_⟩
  · simp only [step, ran]
    exact kept.sound.of_same same.toSameEntries
  · simp only [step, ran]
    intro other member
    rcases List.mem_or_eq_of_mem_set member with old | rfl
    · exact (kept.holds other old).mono (.of_same same.categories same.nextCategory)
    · exact holds
  · simp only [bookedBy, ran, none]
    rfl
  · rw [ran]
    exact same.bookedRows user

/-- The step that books an expense. -/
theorem kept_of_recorded (limit : Int) (kept : recording.Kept user) {caller : Nat}
    {call : WritingCall} {category base : Int} {after : Store}
    (found : recording.run.calls[caller]? = some call) (stage : call.stage = .priced category base)
    (booked : call.request.record call.now category base recording.run.books.store = .ok after) :
    (recording.step limit user (.proceed caller)).Kept user := by
  obtain ⟨middle, named, same, rfl, inTable, owner, name⟩ :=
    (kept.holds call (List.mem_of_getElem? found)).exists_booking stage booked
  obtain ⟨member, id⟩ := Store.category?_eq_some inTable
  let row := recording.run.books.store.nextExpenseRow (call.expense category base)
  have bookings : recording.run.books.store.bookings (middle.withExpense row) = [row] :=
    Store.bookings_withExpense kept.sound same.expenses rfl
  have stepped : call.stage.step call.request call.now recording.run.books =
      (.recorded, { recording.run.books with store := middle.withExpense row }) := by
    have booking := Books.withStore_eq_ok.2 ⟨_, booked, rfl⟩
    simp only [stage, Writing.step, booking, row]
  have ran : recording.run.step limit (.proceed caller) =
      { books := { recording.run.books with store := middle.withExpense row }
        calls := recording.run.calls.set caller { call with stage := .recorded }
        log := .booked caller row call.isEnforced :: recording.run.log } := by
    simp only [LedgerRun.step, found, stepped, bookings]
    rfl
  have made : middle.expenseRow? row = some
      { categoryId := category, categoryName := named.name, time := row.time
        amount := row.amount } := by
    have found : middle.category? category = some named := by
      unfold Store.category?
      rw [same.categories]
      exact inTable
    exact congrArg (Option.map _) found
  refine ⟨?_, ?_, ?_⟩
  · simp only [step, ran]
    refine (kept.sound.of_same same).withExpense same.nextExpense.symm ?_
    rw [same.categories]
    exact ⟨named, member, id, owner⟩
  · simp only [step, ran]
    intro other member
    rcases List.mem_or_eq_of_mem_set member with old | rfl
    · exact (kept.holds other old).mono (.of_same same.categories same.nextCategory)
    · trivial
  · by_cases own : call.request.user = user
    · refine kept.told_step limit rfl
        [{ name := named.name, time := row.time, amount := row.amount }] ?_ ?_
      · have mine : bookedBy limit user recording.run (.proceed caller) = [(caller, row)] := by
          have own : row.user = user := own
          simp [bookedBy, ran, bookings, own]
        rw [mine, ran]
        refine .cons ⟨_, List.getElem?_set_self (List.getElem?_eq_some_iff.1 found).1, Or.inl rfl, own,
          List.mem_cons_self, ?_⟩ .nil
        rw [name]
        rfl
      · rw [ran]
        have rows := Store.bookedRows_withExpense_self made
        rw [show row.user = user from own, same.bookedRows] at rows
        show ((middle.withExpense row).bookedRows user).map _ = _
        rw [rows, List.map_append]
        rfl
    · refine kept.told_of_same limit rfl ?_ ?_
      · have others : row.user ≠ user := own
        simp [bookedBy, ran, bookings, others]
      · rw [ran]
        exact (Store.bookedRows_withExpense_of_ne own).trans (same.bookedRows user)

theorem kept_proceed (limit : Int) (kept : recording.Kept user) (caller : Nat) :
    (recording.step limit user (.proceed caller)).Kept user := by
  cases found : recording.run.calls[caller]? with
  | none =>
    have same : recording.run.step limit (.proceed caller) = recording.run := by
      simp only [LedgerRun.step, found]
    refine ⟨?_, ?_, kept.told_of_same limit rfl ?_ (by rw [same])⟩
    · simp only [step, same]
      exact kept.sound
    · simp only [step, same]
      exact kept.holds
    · simp only [bookedBy, same, Store.bookings_of_same rfl]
      rfl
  | some call =>
    have holds := kept.holds call (List.mem_of_getElem? found)
    have effect := Writing.step_effect call.request call.now recording.run.books call.stage
    cases stepped : call.stage.step call.request call.now recording.run.books with
    | mk stage books =>
      rw [stepped] at effect
      simp only at effect
      generalize before : call.stage = first at effect
      unfold WritingCall.Holds at holds
      cases effect with
      | refused _ e unbooked => exact kept_of_quiet limit kept found stepped (.refl _) trivial
      | userRead currency => exact kept_of_quiet limit kept found stepped (.refl _) trivial
      | categoryRead currency row named =>
        obtain ⟨member, owner, name⟩ := Store.categoryNamed?_eq_some named
        exact kept_of_quiet limit kept found stepped (.refl _)
          ⟨row, rfl, owner, name, kept.sound.keepsCategory member⟩
      | priced currency category base positive fits =>
        rw [before] at holds
        exact kept_of_quiet limit kept found stepped (.refl _) holds
      | recorded category base after booked => exact kept_of_recorded limit kept found before booked
      | dropped =>
        exact kept_of_quiet limit kept found stepped (Books.sameRows_invalidate _ _) trivial
      | ended result => exact kept_of_quiet limit kept found stepped (.refl _) trivial

theorem kept_step (limit : Int) (kept : recording.Kept user) (action : LedgerAction) :
    (recording.step limit user action).Kept user := by
  cases action with
  | perform op => exact kept_perform limit kept op
  | proceed caller => exact kept_proceed limit kept caller
  | outage tables =>
    have same : Store.SameEntries recording.run.books.store
        { recording.run.books.store with outOfReach := tables } := ⟨rfl, rfl, rfl, rfl⟩
    exact ⟨kept.sound.of_same same, kept.holds,
      kept.told_of_same limit rfl rfl (same.bookedRows user)⟩
  | begin request now =>
    have same : (recording.run.step limit (.begin request now)).books = recording.run.books := rfl
    refine ⟨kept.sound, fun call member => ?_, kept.told_of_same limit rfl rfl (by rw [same])⟩
    rcases List.mem_append.1 member with old | new
    · exact kept.holds call old
    · rw [List.mem_singleton.1 new]
      trivial

theorem kept_ofActions (limit user : Int) {start : Books}
    (noCategories : start.store.categories = []) (noExpenses : start.store.expenses = [])
    (actions : List LedgerAction) : (ofActions limit user start actions).Kept user := by
  have first : Kept user { run := { books := start } } := by
    refine ⟨.of_empty noCategories noExpenses, by simp, ?_⟩
    unfold Store.bookedRows
    rw [noExpenses]
    exact .nil
  exact List.foldlRecOn actions (step limit user) first fun _ kept action _ =>
    kept_step limit kept action

end Recording
end ExpenseLedger
