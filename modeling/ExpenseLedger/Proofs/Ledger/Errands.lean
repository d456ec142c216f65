import ExpenseLedger.Proofs.Ledger.Accounting
import ExpenseLedger.Proofs.Store.Integrity

/-!
# Operations taken statement by statement

Most operations of the ledger make one statement on the tables. Setting a limit, changing a currency
and erasing a user make several, and others may act between them just as between the steps of
writing an expense: `Errand` holds how far an operation has come, and `Errand.steps_eq_perform` says
that it is the operation as a whole if nobody does. In `Traffic` any number of errands and of
writing calls are under way. `Errand.step_revises` and `Writing.Effect.revises` say which changes of
the tables their steps make.
-/

namespace ExpenseLedger

/-- How far an operation of the ledger has come. -/
inductive Errand where
  | begun (op : LedgerOp)
  | limitRead (user : Int) (amount : Amount) (currency : Int)
  | limitPriced (user base : Int)
  | currencyFound (user currency : Int)
  | changed (user : Int)
  | finished (result : Outcome Unit)

namespace Errand

/-- Goes on with what was read, or ends with the error. -/
def proceed {α : Type} (next : α → Errand) : Outcome α → Errand
  | .ok a => next a
  | .error e => .finished (.error e)

/-- Goes on after a change of the tables, or ends with the error. -/
def change (next : Errand) (books : Books) (statement : Store → Outcome Store) : Errand × Books :=
  match books.withStore statement with
  | .ok books => (next, books)
  | .error e => (.finished (.error e), books)

/-- The currency in which a limit is given, which has to be positive. -/
def readLimit (user : Int) (amount : Amount) (store : Store) : Outcome Int := do
  if ¬amount.isPositive then
    .error (.invalidAmount (.limitBelowOneUnit amount))
  else
    let row ← store.user user
    .ok row.currency

/-- Reads the rate and converts the limit, which has to stay positive. -/
def priceLimit (amount : Amount) (currency : Int) (store : Store) : Outcome Int := do
  let base ← store.toBase amount.minor currency
  if base ≤ 0 then .error (.invalidAmount (.limitTooSmall amount)) else .ok base

/-- The next statement of an operation, where new users get the limit that is configured. Once the
tables have been changed, the finished reports of the user are dropped. -/
def step (limit : Int) (books : Books) : Errand → Errand × Books
  | .begun (.setLimit user amount) =>
    (proceed (.limitRead user amount) (readLimit user amount books.store), books)
  | .begun (.changeCurrency user code) =>
    (proceed (fun currency => .currencyFound user currency.id) (books.store.currencyOfCode code),
      books)
  | .begun (.resetUser user) => change (.changed user) books fun store => store.deleteUser user
  | .begun op =>
    match op.perform limit books with
    | .ok (_, books) => (.finished (.ok ()), books)
    | .error e => (.finished (.error e), books)
  | .limitRead user amount currency =>
    (proceed (.limitPriced user) (priceLimit amount currency books.store), books)
  | .limitPriced user base =>
    change (.finished (.ok ())) books fun store => store.setLimit user base
  | .currencyFound user currency =>
    change (.changed user) books fun store => store.setCurrency user currency
  | .changed user => (.finished (.ok ()), books.invalidate user)
  | .finished result => (.finished result, books)

/-- A number of steps of an operation without anybody in between. -/
def steps (limit : Int) : Nat → Errand → Books → Errand × Books
  | 0, errand, books => (errand, books)
  | count + 1, errand, books =>
    let (errand, books) := errand.step limit books
    steps limit count errand books

/-- How many steps there are from the first stage to the last. -/
def stepCount : Nat := 3

theorem steps_finished (limit : Int) (count : Nat) (result : Outcome Unit) (books : Books) :
    steps limit count (.finished result) books = (.finished result, books) := by
  induction count with
  | zero => rfl
  | succ count ih => exact ih

theorem steps_of_step {limit : Int} {errand next : Errand} {books after : Books}
    (h : errand.step limit books = (next, after)) (count : Nat) :
    steps limit (count + 1) errand books = steps limit count next after := by
  simp only [steps, h]

/-- Setting a limit as its two reads and its change. -/
theorem setLimit_eq (books : Books) (user : Int) (amount : Amount) :
    books.setLimit user amount = (do
      let currency ← readLimit user amount books.store
      let base ← priceLimit amount currency books.store
      books.withStore fun store => store.setLimit user base) := by
  unfold Books.setLimit readLimit priceLimit
  cases amount.isPositive with
  | false => rfl
  | true =>
    cases books.store.user user with
    | error e => rfl
    | ok row =>
      simp only [bind, Except.bind, not_true, if_false]
      cases books.store.toBase amount.minor row.currency with
      | error e => rfl
      | ok base => by_cases small : base ≤ 0 <;> simp only [small, if_true, if_false]

/-- Whatever becomes of reading and changing is what becomes of the stages for it. -/
theorem steps_setLimit (limit : Int) (books : Books) (user : Int) (amount : Amount) :
    steps limit stepCount (.begun (.setLimit user amount)) books =
      match books.setLimit user amount with
      | .ok after => (.finished (.ok ()), after)
      | .error e => (.finished (.error e), books) := by
  rw [setLimit_eq, stepCount]
  cases read : readLimit user amount books.store with
  | error e =>
    have ended : (begun (.setLimit user amount)).step limit books =
        (.finished (.error e), books) := by simp only [step, read, proceed]
    exact (steps_of_step ended 2).trans (steps_finished limit 2 _ _)
  | ok currency =>
    have first : (begun (.setLimit user amount)).step limit books =
        (.limitRead user amount currency, books) := by simp only [step, read, proceed]
    rw [steps_of_step first]
    cases priced : priceLimit amount currency books.store with
    | error e =>
      have ended : (limitRead user amount currency).step limit books =
          (.finished (.error e), books) := by simp only [step, priced, proceed]
      simp only [steps_of_step ended, steps_finished, bind, Except.bind, priced]
    | ok base =>
      have second : (limitRead user amount currency).step limit books =
          (.limitPriced user base, books) := by simp only [step, priced, proceed]
      rw [steps_of_step second]
      simp only [steps, step, change, bind, Except.bind, priced]

theorem steps_changeCurrency (limit : Int) (books : Books) (user : Int) (code : String) :
    steps limit stepCount (.begun (.changeCurrency user code)) books =
      match books.changeCurrency user code with
      | .ok (_, after) => (.finished (.ok ()), after)
      | .error e => (.finished (.error e), books) := by
  rw [Books.changeCurrency, stepCount]
  cases found : books.store.currencyOfCode code with
  | error e =>
    have ended : (begun (.changeCurrency user code)).step limit books =
        (.finished (.error e), books) := by simp only [step, found, proceed]
    exact (steps_of_step ended 2).trans (steps_finished limit 2 _ _)
  | ok currency =>
    have first : (begun (.changeCurrency user code)).step limit books =
        (.currencyFound user currency.id, books) := by simp only [step, found, proceed]
    rw [steps_of_step first]
    simp only [steps, step, change, bind, Except.bind]
    cases books.withStore fun store => store.setCurrency user currency.id <;> rfl

theorem steps_resetUser (limit : Int) (books : Books) (user : Int) :
    steps limit stepCount (.begun (.resetUser user)) books =
      match books.resetUser user with
      | .ok after => (.finished (.ok ()), after)
      | .error e => (.finished (.error e), books) := by
  simp only [Books.resetUser, stepCount, steps, step, change, bind, Except.bind]
  cases books.withStore fun store => store.deleteUser user <;> rfl

/-- An operation without anybody between its statements is the operation done at once. -/
theorem steps_eq_perform (limit : Int) (op : LedgerOp) (books : Books) :
    steps limit stepCount (.begun op) books =
      match op.perform limit books with
      | .ok (_, after) => (.finished (.ok ()), after)
      | .error e => (.finished (.error e), books) := by
  have whole (h : (Errand.begun op).step limit books = match op.perform limit books with
      | .ok (_, after) => (.finished (.ok ()), after)
      | .error e => (.finished (.error e), books)) :
      steps limit stepCount (.begun op) books = match op.perform limit books with
      | .ok (_, after) => (.finished (.ok ()), after)
      | .error e => (.finished (.error e), books) := by
    rw [stepCount, steps_of_step h]
    cases op.perform limit books with
    | ok result => exact steps_finished limit 2 _ _
    | error e => exact steps_finished limit 2 _ _
  cases op with
  | setLimit user amount =>
    rw [steps_setLimit]
    simp only [LedgerOp.perform, bind, Except.bind]
    cases books.setLimit user amount <;> rfl
  | changeCurrency user code =>
    rw [steps_changeCurrency]
    simp only [LedgerOp.perform, bind, Except.bind]
    cases books.changeCurrency user code <;> rfl
  | resetUser user =>
    rw [steps_resetUser]
    simp only [LedgerOp.perform, bind, Except.bind]
    cases books.resetUser user <;> rfl
  | addUser user => exact whole rfl
  | addCategory user name => exact whole rfl
  | resetLimit user => exact whole rfl
  | resetAllLimits => exact whole rfl
  | storeRates batch => exact whole rfl

end Errand

/-- One action of somebody. Errands and writing calls are named by their places in the lists of the
traffic; tables may go out of reach at any time, and come back. -/
inductive TrafficAction where
  | begin (op : LedgerOp)
  | proceed (errand : Nat)
  | beginWriting (request : ExpenseRequest) (now : Instant)
  | proceedWriting (caller : Nat)
  | outage (tables : List Table)

/-- The books, and what is under way. -/
structure Traffic where
  books : Books
  errands : List Errand := []
  writings : List WritingCall := []

namespace Traffic

/-- The traffic after one more action. -/
def step (limit : Int) (traffic : Traffic) : TrafficAction → Traffic
  | .begin op => { traffic with errands := traffic.errands ++ [.begun op] }
  | .proceed index =>
    match traffic.errands[index]? with
    | none => traffic
    | some errand =>
      let (next, books) := errand.step limit traffic.books
      { traffic with books, errands := traffic.errands.set index next }
  | .beginWriting request now =>
    { traffic with writings := traffic.writings ++ [{ request, now }] }
  | .proceedWriting caller =>
    match traffic.writings[caller]? with
    | none => traffic
    | some call =>
      let (stage, books) := call.stage.step call.request call.now traffic.books
      { traffic with books, writings := traffic.writings.set caller { call with stage } }
  | .outage tables =>
    { traffic with
      books := { traffic.books with store := { traffic.books.store with outOfReach := tables } } }

/-- The traffic after a list of actions, from some books on. -/
def ofActions (limit : Int) (start : Books) (actions : List TrafficAction) : Traffic :=
  actions.foldl (step limit) { books := start }

end Traffic

/-! ## What a statement does to the tables -/

namespace Store

variable {store after : Store}

/-- A row that takes the place of one with the same currency. -/
theorem revises_putUser_of_found {old row : User} {id : Int} (found : store.user? id = some old)
    (same : old.currency = row.currency) : Revises store (store.putUser row) :=
  .userPut row (Or.inl ⟨old, (Rows.get?_eq_some found).1, same⟩)

theorem revises_of_storeRates {batch : List Currency} (h : store.storeRates batch = .ok after) :
    Revises store after := by
  induction batch generalizing store with
  | nil =>
    cases h
    exact .nothing
  | cons currency rest ih =>
    obtain ⟨admits, h⟩ := storeRates_cons.1 h
    have first : Revises store (store.putCurrency currency) :=
      .rateStored currency (codeTaken_eq_false.2 admits.free)
    exact first.trans (ih h)

theorem revises_invalidate (books : Books) (user : Int) :
    Revises books.store (books.invalidate user).store := by
  refine .elsewhere (books.sameRows_invalidate user) ?_
  obtain ⟨cachedReports, dropped⟩ := books.invalidate_store user
  rw [dropped]

end Store

/-- An operation that is done at once makes changes that its statements have made sure of. -/
theorem LedgerOp.perform_revises {limit : Int} {books after : Books} {op : LedgerOp}
    {events : List LedgerEvent} (h : op.perform limit books = .ok (events, after)) :
    Store.Revises books.store after.store := by
  cases op with
  | addUser user =>
    obtain ⟨⟨created, books'⟩, performed, h⟩ := Outcome.bind_eq_ok.1 h
    obtain ⟨⟨created', store⟩, added, performed⟩ := Outcome.bind_eq_ok.1 performed
    cases performed
    cases h
    rcases Store.addUser_eq_ok added with ⟨-, rfl, -⟩ | ⟨-, -, ⟨currency, known⟩, rfl⟩
    · exact .nothing
    · exact .userPut _ (Or.inr (by simp [known]))
  | resetUser user =>
    obtain ⟨books', performed, h⟩ := Outcome.bind_eq_ok.1 h
    obtain rfl := Books.resetUser_eq_ok performed
    cases h
    exact .trans (.userErased user) (Store.revises_invalidate ⟨_, books.cache⟩ user)
  | addCategory user name =>
    obtain ⟨⟨created, books'⟩, performed, h⟩ := Outcome.bind_eq_ok.1 h
    obtain ⟨⟨created', store⟩, added, performed⟩ := Outcome.bind_eq_ok.1 performed
    cases performed
    cases h
    obtain ⟨-, ⟨-, -, rfl⟩ | ⟨-, absent, ⟨row, found⟩, rfl⟩⟩ := Store.addCategory_eq_ok added
    · exact .numberSpent
    · exact .categoryMade user _ (isTrimmed_trim name) absent (by simp [found])
  | setLimit user amount =>
    obtain ⟨books', performed, h⟩ := Outcome.bind_eq_ok.1 h
    cases h
    obtain ⟨row, base, found, -, -, rfl⟩ := Books.setLimit_eq_ok performed
    exact Store.revises_putUser_of_found found rfl
  | resetLimit user =>
    obtain ⟨books', performed, h⟩ := Outcome.bind_eq_ok.1 h
    cases h
    obtain ⟨row, found, rfl⟩ := Books.resetLimit_eq_ok performed
    exact Store.revises_putUser_of_found found rfl
  | resetAllLimits =>
    obtain ⟨⟨count, books'⟩, performed, h⟩ := Outcome.bind_eq_ok.1 h
    obtain ⟨⟨count', store⟩, reset, performed⟩ := Outcome.bind_eq_ok.1 performed
    cases performed
    cases h
    obtain rfl := Store.resetAllLimits_eq_ok reset
    exact .limitsRestored
  | changeCurrency user code =>
    obtain ⟨⟨currency, books'⟩, performed, h⟩ := Outcome.bind_eq_ok.1 h
    cases h
    obtain ⟨target, -, performed⟩ := Outcome.bind_eq_ok.1 performed
    obtain ⟨changed, changing, performed⟩ := Outcome.bind_eq_ok.1 performed
    obtain ⟨store, set, rfl⟩ := Books.withStore_eq_ok.1 changing
    obtain ⟨row, -, ⟨known, inTable⟩, rfl⟩ := Store.setCurrency_eq_ok set
    cases performed
    exact .trans (.userPut _ (Or.inr (Option.isSome_of_mem inTable)))
      (Store.revises_invalidate ⟨_, books.cache⟩ user)
  | storeRates batch =>
    obtain ⟨books', performed, h⟩ := Outcome.bind_eq_ok.1 h
    cases h
    obtain ⟨store, stored, rfl⟩ := Books.withStore_eq_ok.1 performed
    exact Store.revises_of_storeRates stored

namespace Errand

theorem change_revises {next : Errand} {books : Books} {statement : Store → Outcome Store}
    (revises : ∀ after, statement books.store = .ok after → Store.Revises books.store after) :
    Store.Revises books.store (change next books statement).2.store := by
  cases changed : books.withStore statement with
  | ok after =>
    simp only [change, changed]
    obtain ⟨store, done, rfl⟩ := Books.withStore_eq_ok.1 changed
    exact revises store done
  | error e =>
    simp only [change, changed]
    exact .nothing

theorem step_revises (limit : Int) (books : Books) (errand : Errand) :
    Store.Revises books.store (errand.step limit books).2.store := by
  have whole (op : LedgerOp) : Store.Revises books.store
      (match op.perform limit books with
        | .ok (_, books) => (Errand.finished (.ok ()), books)
        | .error e => (.finished (.error e), books)).2.store := by
    cases performed : op.perform limit books with
    | ok result => exact LedgerOp.perform_revises performed
    | error e => exact .nothing
  cases errand with
  | begun op =>
    cases op with
    | setLimit user amount => exact .nothing
    | changeCurrency user code => exact .nothing
    | resetUser user =>
      refine change_revises fun after deleted => ?_
      obtain ⟨-, rfl⟩ := Store.deleteUser_eq_ok deleted
      exact .userErased user
    | addUser user => exact whole (.addUser user)
    | addCategory user name => exact whole (.addCategory user name)
    | resetLimit user => exact whole (.resetLimit user)
    | resetAllLimits => exact whole .resetAllLimits
    | storeRates batch => exact whole (.storeRates batch)
  | limitRead user amount currency => exact .nothing
  | limitPriced user base =>
    refine change_revises fun after set => ?_
    obtain ⟨row, found, rfl⟩ := Store.setLimit_eq_ok set
    exact Store.revises_putUser_of_found found rfl
  | currencyFound user currency =>
    refine change_revises fun after set => ?_
    obtain ⟨row, -, ⟨known, inTable⟩, rfl⟩ := Store.setCurrency_eq_ok set
    exact .userPut _ (Or.inr (Option.isSome_of_mem inTable))
  | changed user => exact Store.revises_invalidate books user
  | finished result => exact .nothing

end Errand

/-- A step of writing an expense books it under a category of its user, if the call holds one. -/
theorem Writing.Effect.revises {request : ExpenseRequest} {now : Instant} {books after : Books}
    {stage next : Writing} (effect : Writing.Effect request now books stage next after)
    (files : ∀ category base, stage = .priced category base →
      books.store.Files request.user category) :
    Store.Revises books.store after.store := by
  cases effect with
  | recorded category base store booked =>
    obtain ⟨row, found, ⟨known, inTable⟩, change⟩ := Store.insertExpense_eq_ok booked
    have filed := (files category base rfl).exists_row inTable
    rcases change with ⟨-, rfl⟩ | ⟨-, -, rfl⟩
    · exact .expenseBooked _ rfl filed
    · have charge : Store.Revises books.store (books.store.putUser (Store.charged row base)) :=
        Store.revises_putUser_of_found found rfl
      exact charge.trans (.expenseBooked _ rfl filed)
  | dropped => exact Store.revises_invalidate books request.user
  | _ => exact .nothing

end ExpenseLedger
