import ExpenseLedger.Ledger.Accounts
import ExpenseLedger.Proofs.Books
import ExpenseLedger.Proofs.Store.Rates

/-!
# Runs of the ledger

Any number of callers write expenses step by step, and between their steps anybody may do anything
else to the books. A run keeps a log, the newest event first, of what decides how much of a limit
is left: limits that were started over, and expenses that were booked. The bookings are read off
the table of expenses before and after a step.

`LedgerOp.perform_effect` says all that an operation can do to the books, and
`Writing.step_effect` all that a step of writing an expense can do.
-/

namespace ExpenseLedger

/-- An operation on the books that is done at once. -/
inductive LedgerOp where
  | addUser (user : Int)
  | resetUser (user : Int)
  | addCategory (user : Int) (name : String)
  | setLimit (user : Int) (amount : Amount)
  | resetLimit (user : Int)
  | resetAllLimits
  | changeCurrency (user : Int) (code : String)
  | storeRates (batch : List Currency)

/-- What bears on the limit of a user. -/
inductive LedgerEvent where
  | restarted (user : Int)
  | allRestarted
  | booked (caller : Nat) (expense : Expense) (enforced : Bool)

namespace LedgerOp

/-- Performs an operation, where new users get the limit that is configured. -/
def perform (limit : Int) (books : Books) : LedgerOp → Outcome (List LedgerEvent × Books)
  | .addUser user => do
    let (created, books) ← books.addUser user limit
    .ok (if created then [.restarted user] else [], books)
  | .resetUser user => do
    let books ← books.resetUser user
    .ok ([], books)
  | .addCategory user name => do
    let (_, books) ← books.addCategory user name
    .ok ([], books)
  | .setLimit user amount => do
    let books ← books.setLimit user amount
    .ok ([.restarted user], books)
  | .resetLimit user => do
    let books ← books.resetLimit user
    .ok ([.restarted user], books)
  | .resetAllLimits => do
    let (_, books) ← books.resetAllLimits
    .ok ([.allRestarted], books)
  | .changeCurrency user code => do
    let (_, books) ← books.changeCurrency user code
    .ok ([], books)
  | .storeRates batch => do
    let books ← books.withStore fun store => store.storeRates batch
    .ok ([], books)

end LedgerOp

/-- A call that writes an expense, begun at an instant. -/
structure WritingCall where
  request : ExpenseRequest
  now : Instant
  stage : Writing := .begun

/-- The expense counts against the monthly limit. -/
def WritingCall.isEnforced (call : WritingCall) : Bool :=
  decide (call.request.time.InMonthOf call.now)

/-- One action on the books. Tables may go out of reach at any time, and come back. -/
inductive LedgerAction where
  | perform (op : LedgerOp)
  | begin (request : ExpenseRequest) (now : Instant)
  | proceed (caller : Nat)
  | outage (tables : List Table)

/-- The books, the calls that write expenses, and what has been seen. -/
structure LedgerRun where
  books : Books
  calls : List WritingCall := []
  log : List LedgerEvent := []

namespace Store

/-- The expenses of the second table whose numbers the first does not have. -/
def bookings (before after : Store) : List Expense :=
  after.expenses.filter fun expense =>
    before.expenses.all fun old => decide (old.id ≠ expense.id)

end Store

namespace LedgerRun

/-- The run after one more action. An operation that fails changes nothing. -/
def step (limit : Int) (run : LedgerRun) : LedgerAction → LedgerRun
  | .perform op =>
    match op.perform limit run.books with
    | .ok (events, books) => { run with books, log := events ++ run.log }
    | .error _ => run
  | .begin request now => { run with calls := run.calls ++ [{ request, now }] }
  | .proceed caller =>
    match run.calls[caller]? with
    | none => run
    | some call =>
      let (stage, books) := call.stage.step call.request call.now run.books
      let booked := run.books.store.bookings books.store
      { books
        calls := run.calls.set caller { call with stage }
        log := booked.map (fun expense => .booked caller expense call.isEnforced) ++ run.log }
  | .outage tables =>
    { run with books := { run.books with store := { run.books.store with outOfReach := tables } } }

/-- The run of a list of actions, from some books on. -/
def ofActions (limit : Int) (start : Books) (actions : List LedgerAction) : LedgerRun :=
  actions.foldl (step limit) { books := start }

end LedgerRun

/-- Books with the reference currency alone. -/
def newBooks : Books :=
  { store := { currencies := [{ id := 0, code := "EUR", rate := Binary64.one }] }, cache := .shared }

/-! ## What an operation can do -/

/-- What a conversion settles on fits 64 bits. -/
theorem Writing.settle_fits {amount base : Int} {rate : Rate} {result : Option Decimal}
    (h : Error.ofConversion (Conversion.settle amount rate result) = .ok base) :
    FitsInt64 base := by
  unfold Conversion.settle at h
  split at h
  · cases h
  · split at h
    · next fits =>
      cases h
      exact fits
    · cases h

namespace Books

variable {books after : Books} {user : Int}

theorem resetUser_eq_ok (h : books.resetUser user = .ok after) :
    after = Books.invalidate { books with store := books.store.withoutUser user } user := by
  obtain ⟨without, changed, h⟩ := Outcome.bind_eq_ok.1 h
  obtain ⟨store, deleted, rfl⟩ := withStore_eq_ok.1 changed
  obtain ⟨-, rfl⟩ := Store.deleteUser_eq_ok deleted
  cases h
  rfl

theorem setLimit_eq_ok {amount : Amount} (h : books.setLimit user amount = .ok after) :
    ∃ row base, books.store.user? user = some row ∧ 0 < base ∧ FitsInt64 base ∧
      after = { books with
        store := books.store.putUser { row with defaultLimit := base, currentLimit := base } } := by
  unfold setLimit at h
  split at h
  · cases h
  · obtain ⟨read, -, h⟩ := Outcome.bind_eq_ok.1 h
    obtain ⟨base, converted, h⟩ := Outcome.bind_eq_ok.1 h
    obtain ⟨rate, -, conversion⟩ := Outcome.bind_eq_ok.1 converted
    split at h
    · cases h
    · next positive =>
      obtain ⟨store, set, rfl⟩ := withStore_eq_ok.1 h
      obtain ⟨row, found, rfl⟩ := Store.setLimit_eq_ok set
      exact ⟨row, base, found, Int.not_le.1 positive, Writing.settle_fits conversion, rfl⟩

theorem resetLimit_eq_ok (h : books.resetLimit user = .ok after) :
    ∃ row, books.store.user? user = some row ∧
      after = { books with store := books.store.putUser (Store.restored row) } := by
  obtain ⟨store, reset, rfl⟩ := withStore_eq_ok.1 h
  obtain ⟨row, found, rfl⟩ := Store.resetLimit_eq_ok reset
  exact ⟨row, found, rfl⟩

theorem changeCurrency_eq_ok {code : String} {currency : Currency}
    (h : books.changeCurrency user code = .ok (currency, after)) :
    ∃ row, books.store.user? user = some row ∧
      after = Books.invalidate { books with
        store := books.store.putUser { row with currency := currency.id } } user := by
  obtain ⟨target, -, h⟩ := Outcome.bind_eq_ok.1 h
  obtain ⟨changed, changing, h⟩ := Outcome.bind_eq_ok.1 h
  obtain ⟨store, set, rfl⟩ := withStore_eq_ok.1 changing
  obtain ⟨row, found, -, rfl⟩ := Store.setCurrency_eq_ok set
  cases h
  exact ⟨row, found, rfl⟩

end Books

namespace LedgerOp

/-- What an operation that succeeds can do to the books. -/
inductive Effect (limit : Int) (books : Books) : List LedgerEvent → Books → Prop
  | nothing : Effect limit books [] books
  | created (user currency : Int) (absent : books.store.user? user = none) :
      Effect limit books [.restarted user]
        { books with
          store := books.store.putUser
            { id := user, currency, defaultLimit := limit, currentLimit := limit } }
  | erased (user : Int) :
      Effect limit books []
        (Books.invalidate { books with store := books.store.withoutUser user } user)
  | numberSpent (fits : FitsInt64 books.store.nextCategory) :
      Effect limit books [] { books with store := books.store.withoutNextCategory }
  | categoryMade (user : Int) (name : String) (fits : FitsInt64 books.store.nextCategory)
      (absent : books.store.categoryNamed? user name = none) :
      Effect limit books []
        { books with store := books.store.withCategory (books.store.nextCategoryRow user name) }
  | limitSet (row : User) (amount : Int) (found : books.store.user? row.id = some row)
      (positive : 0 < amount) (fits : FitsInt64 amount) :
      Effect limit books [.restarted row.id]
        { books with
          store := books.store.putUser
            { row with defaultLimit := amount, currentLimit := amount } }
  | limitRestored (row : User) (found : books.store.user? row.id = some row) :
      Effect limit books [.restarted row.id]
        { books with store := books.store.putUser (Store.restored row) }
  | allRestored :
      Effect limit books [.allRestarted] { books with store := books.store.withLimitsRestored }
  | currencyChanged (row : User) (currency : Int) (found : books.store.user? row.id = some row) :
      Effect limit books []
        (Books.invalidate
          { books with store := books.store.putUser { row with currency } } row.id)
  | ratesStored (currencies : List Currency) :
      Effect limit books [] { books with store := { books.store with currencies } }

theorem perform_effect {limit : Int} {books after : Books} {op : LedgerOp}
    {events : List LedgerEvent} (h : op.perform limit books = .ok (events, after)) :
    Effect limit books events after := by
  cases op with
  | addUser user =>
    obtain ⟨⟨created, books'⟩, performed, h⟩ := Outcome.bind_eq_ok.1 h
    obtain ⟨⟨created', store⟩, added, performed⟩ := Outcome.bind_eq_ok.1 performed
    cases performed
    cases h
    rcases Store.addUser_eq_ok added with ⟨rfl, rfl, -⟩ | ⟨rfl, absent, -, rfl⟩
    · exact .nothing
    · exact .created user _ absent
  | resetUser user =>
    obtain ⟨books', performed, h⟩ := Outcome.bind_eq_ok.1 h
    obtain rfl := Books.resetUser_eq_ok performed
    cases h
    exact .erased user
  | addCategory user name =>
    obtain ⟨⟨created, books'⟩, performed, h⟩ := Outcome.bind_eq_ok.1 h
    obtain ⟨⟨created', store⟩, added, performed⟩ := Outcome.bind_eq_ok.1 performed
    cases performed
    cases h
    obtain ⟨fits, ⟨rfl, -, rfl⟩ | ⟨rfl, absent, -, rfl⟩⟩ := Store.addCategory_eq_ok added
    · exact .numberSpent fits
    · exact .categoryMade user _ fits absent
  | setLimit user amount =>
    obtain ⟨books', performed, h⟩ := Outcome.bind_eq_ok.1 h
    cases h
    obtain ⟨row, base, found, positive, fits, rfl⟩ := Books.setLimit_eq_ok performed
    obtain rfl := Store.user?_id found
    exact .limitSet row base found positive fits
  | resetLimit user =>
    obtain ⟨books', performed, h⟩ := Outcome.bind_eq_ok.1 h
    cases h
    obtain ⟨row, found, rfl⟩ := Books.resetLimit_eq_ok performed
    obtain rfl := Store.user?_id found
    exact .limitRestored row found
  | resetAllLimits =>
    obtain ⟨⟨count, books'⟩, performed, h⟩ := Outcome.bind_eq_ok.1 h
    obtain ⟨⟨count', store⟩, reset, performed⟩ := Outcome.bind_eq_ok.1 performed
    cases performed
    cases h
    obtain rfl := Store.resetAllLimits_eq_ok reset
    exact .allRestored
  | changeCurrency user code =>
    obtain ⟨⟨currency, books'⟩, performed, h⟩ := Outcome.bind_eq_ok.1 h
    cases h
    obtain ⟨row, found, rfl⟩ := Books.changeCurrency_eq_ok performed
    obtain rfl := Store.user?_id found
    exact .currencyChanged row _ found
  | storeRates batch =>
    obtain ⟨books', performed, h⟩ := Outcome.bind_eq_ok.1 h
    cases h
    obtain ⟨store, stored, rfl⟩ := Books.withStore_eq_ok.1 performed
    obtain ⟨currencies, rfl⟩ := Store.storeRates_eq_ok stored
    exact .ratesStored currencies

/-- The tables fit together as before. -/
theorem Effect.sound {limit : Int} {books after : Books} {events : List LedgerEvent}
    (effect : Effect limit books events after) (sound : books.store.Sound) :
    after.store.Sound := by
  cases effect with
  | nothing => exact sound
  | created user currency absent => exact sound.of_same (Store.sameEntries_putUser _ _)
  | erased user =>
    have same := Books.sameRows_invalidate { books with store := books.store.withoutUser user } user
    exact (sound.withoutUser user).of_same same.toSameEntries
  | numberSpent fits => exact sound.withoutNextCategory
  | categoryMade user name fits absent => exact sound.withCategory
  | limitSet row amount found positive fits => exact sound.of_same (Store.sameEntries_putUser _ _)
  | limitRestored row found => exact sound.of_same (Store.sameEntries_putUser _ _)
  | allRestored => exact sound.of_same (Store.sameEntries_withLimitsRestored _)
  | currencyChanged row currency found =>
    have same := Books.sameRows_invalidate
      { books with store := books.store.putUser { row with currency } } row.id
    have changed := sound.of_same (Store.sameEntries_putUser books.store { row with currency })
    exact changed.of_same same.toSameEntries
  | ratesStored currencies => exact sound.of_same ⟨rfl, rfl, rfl, rfl⟩

end LedgerOp

/-! ## What a step of writing an expense can do -/

namespace Writing

/-- The expense has not been booked yet, and the call has not ended. -/
def isUnbooked : Writing → Bool
  | .recorded | .finished _ => false
  | _ => true

/-- What a step of writing an expense can do: it goes on, with what it has read, or ends. Only the
step that books the expense and the one that drops finished reports change the books. -/
inductive Effect (request : ExpenseRequest) (now : Instant) (books : Books) :
    Writing → Writing → Books → Prop
  | refused (stage : Writing) (e : Error) (unbooked : stage.isUnbooked = true) :
      Effect request now books stage (.finished (.error e)) books
  | userRead (currency : Int) :
      Effect request now books .begun (.userRead currency) books
  | categoryRead (currency : Int) (row : Category)
      (named : books.store.categoryNamed? request.user request.categoryName = some row) :
      Effect request now books (.userRead currency) (.categoryRead currency row.id) books
  | priced (currency category base : Int) (positive : 0 < base) (fits : FitsInt64 base) :
      Effect request now books (.categoryRead currency category) (.priced category base) books
  | recorded (category base : Int) (after : Store)
      (booked : request.record now category base books.store = .ok after) :
      Effect request now books (.priced category base) .recorded { books with store := after }
  | dropped : Effect request now books .recorded (.finished (.ok ())) (books.invalidate request.user)
  | ended (result : Outcome Unit) :
      Effect request now books (.finished result) (.finished result) books

theorem readCategory_eq_ok {request : ExpenseRequest} {store : Store} {category : Int}
    (h : request.readCategory store = .ok category) :
    ∃ row, store.categoryNamed? request.user request.categoryName = some row ∧
      row.id = category := by
  obtain ⟨id, read, h⟩ := Outcome.bind_eq_ok.1 h
  cases id with
  | none => cases h
  | some id =>
    cases h
    exact Option.map_eq_some_iff.1 (Store.categoryId_eq_ok.1 read).2

theorem price_eq_ok {request : ExpenseRequest} {store : Store} {currency base : Int}
    (h : request.price currency store = .ok base) : 0 < base ∧ FitsInt64 base := by
  obtain ⟨converted, conversion, h⟩ := Outcome.bind_eq_ok.1 h
  obtain ⟨rate, -, conversion⟩ := Outcome.bind_eq_ok.1 conversion
  split at h
  · next positive =>
    cases h
    exact ⟨positive, settle_fits conversion⟩
  · cases h

theorem step_effect (request : ExpenseRequest) (now : Instant) (books : Books) (stage : Writing) :
    Effect request now books stage (stage.step request now books).1
      (stage.step request now books).2 := by
  cases stage with
  | begun =>
    cases read : request.readUser books.store with
    | ok currency =>
      simp only [step, read]
      exact .userRead currency
    | error e =>
      simp only [step, read]
      exact .refused _ e rfl
  | userRead currency =>
    cases read : request.readCategory books.store with
    | ok category =>
      simp only [step, read]
      obtain ⟨row, named, rfl⟩ := readCategory_eq_ok read
      exact .categoryRead currency row named
    | error e =>
      simp only [step, read]
      exact .refused _ e rfl
  | categoryRead currency category =>
    cases read : request.price currency books.store with
    | ok base =>
      simp only [step, read]
      obtain ⟨positive, fits⟩ := price_eq_ok read
      exact .priced currency category base positive fits
    | error e =>
      simp only [step, read]
      exact .refused _ e rfl
  | priced category base =>
    cases booking : books.withStore (request.record now category base) with
    | ok after =>
      simp only [step, booking]
      obtain ⟨store, booked, rfl⟩ := Books.withStore_eq_ok.1 booking
      exact .recorded category base store booked
    | error e =>
      simp only [step, booking]
      exact .refused _ e rfl
  | recorded => exact .dropped
  | finished result => exact .ended result

/-- A step that refuses the expense leaves the books as they were. -/
theorem books_of_step_refused {request : ExpenseRequest} {now : Instant} {books : Books}
    {stage : Writing} {e : Error}
    (h : (stage.step request now books).1 = .finished (.error e)) :
    (stage.step request now books).2 = books := by
  have effect := step_effect request now books stage
  rw [h] at effect
  generalize (stage.step request now books).2 = after at effect
  cases effect <;> rfl

end Writing

/-! ## The queue stays as it is -/

theorem LedgerOp.Effect.queue {limit : Int} {books after : Books} {events : List LedgerEvent}
    (effect : LedgerOp.Effect limit books events after) :
    books.store.SameQueue after.store := by
  cases effect with
  | erased user =>
    have same := (Books.sameRows_invalidate
      { books with store := books.store.withoutUser user } user).queue
    exact ⟨same.messages, same.nextMessage⟩
  | currencyChanged row currency found =>
    have same := (Books.sameRows_invalidate
      { books with store := books.store.putUser { row with currency } } row.id).queue
    exact ⟨same.messages, same.nextMessage⟩
  | _ => exact ⟨rfl, rfl⟩

theorem Writing.Effect.queue {request : ExpenseRequest} {now : Instant} {books after : Books}
    {stage next : Writing} (effect : Writing.Effect request now books stage next after) :
    books.store.SameQueue after.store := by
  cases effect with
  | recorded category base store booked =>
    obtain ⟨row, -, -, ⟨-, rfl⟩ | ⟨-, -, rfl⟩⟩ := Store.insertExpense_eq_ok booked
    · exact ⟨rfl, rfl⟩
    · exact ⟨rfl, rfl⟩
  | dropped => exact (Books.sameRows_invalidate _ _).queue
  | _ => exact ⟨rfl, rfl⟩

theorem LedgerRun.queue_step (limit : Int) (run : LedgerRun) (action : LedgerAction) :
    run.books.store.SameQueue (run.step limit action).books.store := by
  cases action with
  | perform op =>
    cases performed : op.perform limit run.books with
    | ok result =>
      simp only [step, performed]
      exact (LedgerOp.perform_effect performed).queue
    | error e =>
      simp only [step, performed]
      exact ⟨rfl, rfl⟩
  | begin request now => exact ⟨rfl, rfl⟩
  | proceed caller =>
    cases found : run.calls[caller]? with
    | none =>
      simp only [step, found]
      exact ⟨rfl, rfl⟩
    | some call =>
      simp only [step, found]
      exact (Writing.step_effect call.request call.now run.books call.stage).queue
  | outage tables => exact ⟨rfl, rfl⟩

theorem LedgerRun.messages_step (limit : Int) (run : LedgerRun) (action : LedgerAction) :
    (run.step limit action).books.store.messages = run.books.store.messages :=
  (run.queue_step limit action).messages

end ExpenseLedger
