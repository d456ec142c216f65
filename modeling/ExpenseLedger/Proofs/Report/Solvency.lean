import ExpenseLedger.Proofs.Ledger.Accounting
import ExpenseLedger.Proofs.Report.Acceptance

/-!
# The ledger among report calls

Report calls, workers and the queue touch neither users, categories nor expenses, and no writing call,
so the invariant of the ledger holds of the books at a desk wherever a run has come to. What is left of
a limit is then neither negative nor above the limit, and every expense is positive.
-/

namespace ExpenseLedger

/-! ## Within the ledger -/

namespace LedgerRun

variable {limit : Int} {run : LedgerRun}

/-- The invariant does not depend on currencies, on the queue or on the cache. -/
theorem Kept.of_same (kept : run.Kept) {books : Books}
    (same : Store.SameEntries run.books.store books.store)
    (users : books.store.users = run.books.store.users) : Kept { run with books } where
  sound := kept.sound.of_same same
  balanced := kept.balanced.congr users same.expenses
  numbers := by
    intro caller expense enforced inLog
    show expense.id < books.store.nextExpense
    rw [same.nextExpense]
    exact kept.numbers caller expense enforced inLog
  faithful := fun call member =>
    (kept.faithful call member).mono fun _ _ files => files.of_same same
  told := by
    show ∀ expense ∈ books.store.expenses, _
    rw [same.expenses]
    exact kept.told
  bookedBy := kept.bookedBy

/-- What has been logged has no part in what is done. -/
theorem step_withLog (limit : Int) (run : LedgerRun) (log : List LedgerEvent)
    (action : LedgerAction) :
    (step limit { run with log } action).books = (step limit run action).books ∧
      (step limit { run with log } action).calls = (step limit run action).calls := by
  cases action with
  | begin request now => exact ⟨rfl, rfl⟩
  | outage tables => exact ⟨rfl, rfl⟩
  | perform op =>
    cases performed : op.perform limit run.books <;> simp only [step, performed, and_self]
  | proceed caller =>
    cases found : run.calls[caller]? <;> simp only [step, found, and_self]

/-- A call books a positive amount, and nothing else adds an expense. -/
theorem Kept.positive_step (kept : run.Kept)
    (positive : ∀ expense ∈ run.books.store.expenses, 0 < expense.amount) (action : LedgerAction) :
    ∀ expense ∈ (run.step limit action).books.store.expenses, 0 < expense.amount := by
  cases action with
  | begin request now => exact positive
  | outage tables => exact positive
  | perform op =>
    cases performed : op.perform limit run.books with
    | ok result =>
      simp only [step, performed]
      exact fun expense member =>
        positive expense ((LedgerOp.perform_effect performed).mem_expenses member)
    | error e =>
      simp only [step, performed]
      exact positive
  | proceed caller =>
    cases found : run.calls[caller]? with
    | none =>
      simp only [step, found]
      exact positive
    | some call =>
      have held := kept.faithful call (List.mem_of_getElem? found)
      have effect := Writing.step_effect call.request call.now run.books call.stage
      simp only [step, found]
      generalize call.stage.step call.request call.now run.books = result at effect
      obtain ⟨stage, books⟩ := result
      unfold WritingCall.Faithful at held
      generalize call.stage = first at effect held
      simp only at effect
      cases effect with
      | recorded category base after booked =>
        obtain ⟨-, -, -, ⟨-, rfl⟩ | ⟨-, -, rfl⟩⟩ := Store.insertExpense_eq_ok booked
        all_goals
          intro expense member
          rcases List.mem_append.1 member with old | new
          · exact positive expense old
          · rw [List.mem_singleton.1 new]
            exact held.2
      | dropped =>
        rw [(Books.sameRows_invalidate run.books call.request.user).expenses]
        exact positive
      | _ => exact positive

end LedgerRun

/-! ## At the desk -/

/-- Books before anybody has come: there are currencies, and perhaps requests in the queue. -/
structure Books.Vacant (books : Books) : Prop where
  noUsers : books.store.users = []
  noCategories : books.store.categories = []
  noExpenses : books.store.expenses = []
  noReports : books.entries = []
  ordered : books.CacheOrdered

theorem Books.Vacant.regular {books : Books} (vacant : books.Vacant) : books.Regular where
  users := vacant.noUsers ▸ List.Pairwise.nil
  limits := by simp [vacant.noUsers]
  ordered := vacant.ordered
  keyed := by simp [vacant.noReports]

namespace ReportWorld

/-- The books at the desk and the writing calls keep the invariant of the ledger, and what is booked is
positive. -/
structure Kept (world : ReportWorld) : Prop where
  ledger : ∃ log, LedgerRun.Kept { books := world.desk.books, calls := world.writings, log }
  positive : ∀ expense ∈ world.store.expenses, 0 < expense.amount

variable {settings : ReportSettings} {limit : Int} {world : ReportWorld}

theorem Kept.of_same (kept : world.Kept) {after : ReportWorld}
    (same : Store.SameEntries world.store after.store) (users : after.store.users = world.store.users)
    (writings : after.writings = world.writings) : after.Kept where
  ledger := by
    obtain ⟨log, ledger⟩ := kept.ledger
    rw [writings]
    exact ⟨log, ledger.of_same same users⟩
  positive := by
    rw [same.expenses]
    exact kept.positive

/-- Only the ledger moves writing calls. -/
theorem writings_step (settings : ReportSettings) (limit : Int) (world : ReportWorld)
    {action : ReportAction} (other : ∀ inner, action ≠ .ledger inner) :
    (world.step settings limit action).writings = world.writings := by
  cases action with
  | ledger inner => exact absurd rfl (other inner)
  | begin id user since => rfl
  | publishElsewhere handle request now => rfl
  | settle handle receipt => rfl
  | proceed caller now =>
    simp only [step]
    split <;> rfl
  | cancel caller =>
    simp only [step]
    split <;> rfl
  | claim handle now =>
    simp only [step]
    split <;> rfl
  | prepare index =>
    simp only [step]
    split
    · rfl
    · split <;> rfl
  | deliver index =>
    simp only [step]
    split <;> rfl
  | deliverStray reply =>
    simp only [step]
    split <;> rfl

/-- Besides the ledger nobody touches users, categories and expenses. -/
theorem same_step (settings : ReportSettings) (limit : Int) (world : ReportWorld)
    {action : ReportAction} (other : ∀ inner, action ≠ .ledger inner) :
    Store.SameEntries world.store (world.step settings limit action).store ∧
      (world.step settings limit action).store.users = world.store.users := by
  have touches := world.step_touches settings limit action
  unfold store
  generalize (world.step settings limit action).desk.books = after at touches
  cases touches with
  | nothing _ => exact ⟨.refl _, rfl⟩
  | queued _ messages nextMessage => exact ⟨⟨rfl, rfl, rfl, rfl⟩, rfl⟩
  | ledger inner => exact absurd rfl (other inner)
  | called caller now call found _ touches =>
    cases touches with
    | nothing => exact ⟨.refl _, rfl⟩
    | queued rate stage messages nextMessage => exact ⟨⟨rfl, rfl, rfl, rfl⟩, rfl⟩
    | looked stage result _ found =>
      rw [Books.cachedReport_store found]
      exact ⟨.refl _, rfl⟩
    | kept report stage _ stored =>
      obtain ⟨cachedReports, store⟩ := Books.cacheReport_store stored
      rw [store]
      exact ⟨⟨rfl, rfl, rfl, rfl⟩, rfl⟩

theorem kept_step (settings : ReportSettings) (limit_pos : 0 < limit) (kept : world.Kept)
    (action : ReportAction) : (world.step settings limit action).Kept := by
  by_cases ledger : ∃ inner, action = .ledger inner
  · obtain ⟨inner, rfl⟩ := ledger
    obtain ⟨log, run⟩ := kept.ledger
    let logged : LedgerRun := { books := world.desk.books, calls := world.writings, log }
    obtain ⟨books, calls⟩ := LedgerRun.step_withLog limit
      { books := world.desk.books, calls := world.writings } log inner
    have next : (logged.step limit inner).Kept := LedgerRun.kept_step limit_pos run inner
    have positive : ∀ expense ∈ (logged.step limit inner).books.store.expenses, 0 < expense.amount :=
      run.positive_step kept.positive inner
    refine ⟨⟨(logged.step limit inner).log, ?_⟩, ?_⟩
    · simp only [step]
      rw [← books, ← calls]
      exact next
    · simp only [step, store]
      rw [← books]
      exact positive
  · have other (inner : LedgerAction) (same : action = .ledger inner) : False :=
      ledger ⟨inner, same⟩
    obtain ⟨entries, users⟩ := world.same_step settings limit other
    exact kept.of_same entries users (world.writings_step settings limit other)

end ReportWorld

namespace ReportRun

variable (settings : ReportSettings) {limit : Int} {desk : Desk}

theorem kept_ofActions (limit_pos : 0 < limit) (vacant : desk.books.Vacant)
    (actions : List ReportAction) : (ofActions settings limit desk actions).world.Kept := by
  induction actions using List.reverseRecOn with
  | nil =>
    refine ⟨⟨[], LedgerRun.kept_of_empty vacant.noUsers vacant.noCategories vacant.noExpenses⟩,
      fun expense member => ?_⟩
    have none : expense ∈ desk.books.store.expenses := member
    rw [vacant.noExpenses] at none
    cases none
  | append_singleton actions action ih =>
    unfold ofActions at ih ⊢
    rw [List.foldl_append]
    exact ReportWorld.kept_step settings limit_pos ih action

end ReportRun

/-! ## What holds of the books -/

/-- Books as the ledger keeps them: the tables fit together, expenses are positive, and what is left of
a limit is neither negative nor above the limit. -/
structure Books.Solvent (books : Books) : Prop extends Books.Regular books where
  sound : books.store.Sound
  positive : ∀ expense ∈ books.store.expenses, 0 < expense.amount
  limits_le : ∀ row ∈ books.store.users, 0 ≤ row.currentLimit ∧ row.currentLimit ≤ row.defaultLimit

/-- In every state that writers, report calls and workers can bring about, the books are solvent. -/
theorem ReportRun.solvent_ofActions (settings : ReportSettings) {limit : Int} (limit_pos : 0 < limit)
    (fits : FitsInt64 limit) {desk : Desk} (vacant : desk.books.Vacant)
    (actions : List ReportAction) :
    (ofActions settings limit desk actions).world.desk.books.Solvent := by
  have kept := kept_ofActions settings limit_pos vacant actions
  have regular := regular_ofActions settings fits vacant.regular actions
  obtain ⟨log, ledger⟩ := kept.ledger
  refine { regular with sound := ledger.sound, positive := kept.positive, limits_le := ?_ }
  intro row member
  have balanced := ledger.balanced row.id row (regular.users.get?_of_mem member)
  exact ⟨balanced.nonneg, balanced.le_default⟩

end ExpenseLedger
