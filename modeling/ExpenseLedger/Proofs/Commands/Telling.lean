import ExpenseLedger.Proofs.Money.Order
import ExpenseLedger.Proofs.Users.Separation

/-!
# Commands that tell the limits

Writing an expense, setting a limit and starting one over change the books first, and tell the limits of the
user then. A change that fails leaves the home as it was opened. One that has been made stays, even where the
limits cannot be told afterwards: at the rate of the user's currency 64 bits need not hold them. Then the
command fails although it has been carried out (`limits_untold`). Setting a limit never comes to that, and
nothing does where the limits could be told before, since what is left of a limit is not above it.
-/

namespace ExpenseLedger

/-- A change of the books after which a command tells the limits of a user. -/
inductive LimitChange where
  | expense (request : ExpenseRequest) (now : Instant)
  | limit (user : Int) (amount : Amount)
  | restart (user : Int)

namespace LimitChange

def user : LimitChange → Int
  | .expense request _ => request.user
  | .limit user _ => user
  | .restart user => user

def apply (change : LimitChange) (books : Books) : Outcome Books :=
  match change with
  | .expense request now => books.writeExpense request now
  | .limit user amount => books.setLimit user amount
  | .restart user => books.resetLimit user

def command : LimitChange → BookCommand
  | .expense request now => .expenseAdd request now
  | .limit user amount => .limitSet user amount
  | .restart user => .limitReset user

/-- 64 bits hold the amount of a new limit. -/
def Fits : LimitChange → Prop
  | .limit _ amount => FitsInt64 amount.minor
  | _ => True

/-- The change that a command makes, at a time. -/
def ofCommand? (now : Instant) : Command → Option LimitChange
  | .expenseAdd user category amount date =>
    some (.expense { user, category, amount, time := date.getD now } now)
  | .limitSet user amount => some (.limit user amount)
  | .limitReset user => some (.restart user)
  | _ => none

variable {change : LimitChange} {books after : Books}

theorem command_of_error {e : Error} (h : change.apply books = .error e) :
    change.command books = (.error e, books) := by
  have changed (tell : Books → Outcome Output) :
      BookCommand.afterChange change.apply tell books = (.error e, books) := by
    simp only [BookCommand.afterChange, BookCommand.after, h]
    rfl
  cases change <;> exact changed _

/-- Once the change has been made, the command fails exactly if the limits cannot be told. -/
theorem command_of_ok (h : change.apply books = .ok after) :
    (change.command books).2 = after ∧
      ∀ e, (change.command books).1 = .error e ↔ after.limitStatus change.user = .error e := by
  have changed (message : LimitStatus → String) :
      BookCommand.afterChange change.apply (BookCommand.tellLimits change.user message) books =
        (BookCommand.tellLimits change.user message after, after) := by
    simp only [BookCommand.afterChange, BookCommand.after, h]
    rfl
  have told (message : LimitStatus → String) (e : Error) :
      BookCommand.tellLimits change.user message after = .error e ↔
        after.limitStatus change.user = .error e := by
    unfold BookCommand.tellLimits
    rw [Outcome.bind_eq_error]
    exact or_iff_left fun ⟨_, _, failed⟩ => by cases failed
  have parts {told : Outcome Output} (ran : change.command books = (told, after))
      (fails : ∀ e, told = .error e ↔ after.limitStatus change.user = .error e) :
      (change.command books).2 = after ∧
        ∀ e, (change.command books).1 = .error e ↔ after.limitStatus change.user = .error e := by
    rw [ran]
    exact ⟨rfl, fails⟩
  cases change <;> exact parts (changed _) (told _)

end LimitChange

theorem Error.exists_of_ofRate {α : Type} {result : Except Rate.Fault α} {e : Error}
    (h : Error.ofRate result = .error e) : ∃ fault, e = .conversionFailure fault := by
  cases result <;> cases h
  exact ⟨_, rfl⟩

theorem Error.exists_of_ofConversion {α : Type} {result : Except Conversion.Overflow α} {e : Error}
    (h : Error.ofConversion result = .error e) : ∃ fault, e = .conversionFailure fault := by
  cases result <;> cases h
  exact ⟨_, rfl⟩

/-! ## What a change does to the user -/

namespace Books

/-- The row of a user has been changed, but not its currency, and nothing about currencies either. -/
structure RowChanged (user : Int) (row changed : User) (books after : Books) : Prop where
  found : books.store.user? user = some row
  foundAfter : after.store.user? user = some changed
  currency : changed.currency = row.currency
  outOfReach : after.store.outOfReach = books.store.outOfReach
  currencies : after.store.currencies = books.store.currencies

variable {books after : Books} {user : Int} {row changed : User}

theorem rowChanged_putUser (found : books.store.user? user = some row) (own : changed.id = row.id)
    (currency : changed.currency = row.currency) :
    RowChanged user row changed books { books with store := books.store.putUser changed } where
  found := found
  foundAfter := by
    rw [← Store.user?_id found, ← own]
    exact Store.user?_putUser_self books.store changed
  currency := currency
  outOfReach := rfl
  currencies := rfl

theorem rowChanged_resetLimit (h : books.resetLimit user = .ok after) :
    ∃ row, RowChanged user row (Store.restored row) books after := by
  obtain ⟨row, found, rfl⟩ := resetLimit_eq_ok h
  exact ⟨row, rowChanged_putUser found rfl rfl⟩

theorem rowChanged_setLimit {amount : Amount} (h : books.setLimit user amount = .ok after) :
    ∃ row changed, RowChanged user row changed books after := by
  obtain ⟨row, base, found, -, -, rfl⟩ := setLimit_eq_ok h
  exact ⟨row, _, rowChanged_putUser found rfl rfl⟩

namespace RowChanged

variable (change : RowChanged user row changed books after)

include change

theorem withExpense (expense : Expense) :
    RowChanged user row changed books { after with store := after.store.withExpense expense } :=
  ⟨change.found, change.foundAfter, change.currency, change.outOfReach, change.currencies⟩

theorem invalidate (other : Int) : RowChanged user row changed books (after.invalidate other) := by
  obtain ⟨cachedReports, dropped⟩ := after.invalidate_store other
  obtain ⟨found, foundAfter, currency, outOfReach, currencies⟩ := change
  constructor <;> first | assumption | (rw [dropped]; assumption)

end RowChanged

/-- An expense that is written leaves the row of its user, or takes from what is left of the limit. -/
theorem rowChanged_writeExpense {request : ExpenseRequest} {now : Instant}
    (h : books.writeExpense request now = .ok after) :
    ∃ row changed, RowChanged request.user row changed books after ∧
      (changed = row ∨ ∃ base, 0 < base ∧ 0 ≤ row.currentLimit - base ∧
        changed = Store.charged row base) := by
  obtain ⟨category, base, store, -, base_pos, -, recorded, rfl⟩ := writeExpense_eq_ok h
  obtain ⟨row, found, -, ⟨-, rfl⟩ | ⟨-, affordable, rfl⟩⟩ := Store.insertExpense_eq_ok recorded
  · have unchanged : RowChanged request.user row row books books := ⟨found, found, rfl, rfl, rfl⟩
    exact ⟨row, row, (unchanged.withExpense _).invalidate request.user, Or.inl rfl⟩
  · have charged : RowChanged request.user row (Store.charged row base) books _ :=
      rowChanged_putUser found rfl rfl
    exact ⟨row, Store.charged row base, (charged.withExpense _).invalidate request.user,
      Or.inr ⟨base, base_pos, affordable, rfl⟩⟩

namespace RowChanged

variable (change : RowChanged user row changed books after)

include change

theorem reaches_eq (tables : List Table) : after.store.reaches tables = books.store.reaches tables := by
  unfold Store.reaches
  rw [change.outOfReach]

theorem currency_eq : after.store.currency changed.currency = books.store.currency row.currency := by
  unfold Store.currency Store.currency? Store.reach
  rw [change.reaches_eq, change.currencies, change.currency]

theorem rate_eq : after.store.rate changed.currency = books.store.rate row.currency := by
  unfold Store.rate
  rw [change.currency_eq]

/-- If the limit could be told, and there is no more left now than the limit, then that can be told too. -/
theorem exists_limitStatus {status : LimitStatus} (told : books.limitStatus user = .ok status)
    (limited : row.Limited) (same : changed.defaultLimit = row.defaultLimit)
    (nonneg : 0 ≤ changed.currentLimit) (le : changed.currentLimit ≤ row.defaultLimit) :
    ∃ status', after.limitStatus user = .ok status' := by
  obtain ⟨row', read, told⟩ := Outcome.bind_eq_ok.1 told
  obtain ⟨reached, found⟩ := Store.user_eq_ok.1 read
  obtain rfl := Option.some.inj (change.found.symm.trans found)
  obtain ⟨known, lookup, told⟩ := Outcome.bind_eq_ok.1 told
  obtain ⟨rate, rated, told⟩ := Outcome.bind_eq_ok.1 told
  obtain ⟨shown, default, -⟩ := Outcome.bind_eq_ok.1 told
  have upper := limited.defaultLimit.2
  have fits : FitsInt64 changed.currentLimit := ⟨by unfold minInt64; omega, le.trans upper⟩
  obtain ⟨remaining, left⟩ := Conversion.exists_fromBase_of_le fits limited.defaultLimit nonneg le
    (Error.ofConversion_eq_ok.1 default)
  have readAgain : after.store.user user = .ok changed :=
    Store.user_eq_ok.2 ⟨(change.reaches_eq _).trans reached, change.foundAfter⟩
  have defaultAgain : Error.ofConversion (Conversion.fromBase changed.defaultLimit rate) = .ok shown := by
    rw [same, default]
  refine ⟨⟨known.code, ⟨shown⟩, ⟨remaining⟩⟩, ?_⟩
  unfold limitStatus
  simp only [Outcome.bind_eq_ok]
  exact ⟨changed, readAgain, known, change.currency_eq.trans lookup, rate,
    change.rate_eq.trans rated, shown, defaultAgain, remaining, Error.ofConversion_eq_ok.2 left, rfl⟩

/-- Of a user whose currency is known, limits that cannot be told are amounts that cannot be converted. -/
theorem limitStatus_eq_error {e : Error} {known : Currency} (reached : books.store.outOfReach = [])
    (lookup : books.store.currency? row.currency = some known)
    (untold : after.limitStatus user = .error e) : ∃ fault, e = .conversionFailure fault := by
  have reads (tables : List Table) : after.store.reaches tables = true :=
    (change.reaches_eq tables).trans (Store.reaches_of_outOfReach reached tables)
  have read : after.store.user user = .ok changed :=
    Store.user_eq_ok.2 ⟨reads _, change.foundAfter⟩
  have found : after.store.currency changed.currency = .ok known := by
    rw [change.currency_eq]
    exact Store.currency_eq_ok.2 ⟨Store.reaches_of_outOfReach reached _, lookup⟩
  rcases Outcome.bind_eq_error.1 untold with unread | ⟨row', read', untold⟩
  · cases read.symm.trans unread
  obtain rfl := Except.ok.inj (read.symm.trans read')
  rcases Outcome.bind_eq_error.1 untold with unknown | ⟨_, -, untold⟩
  · cases found.symm.trans unknown
  rcases Outcome.bind_eq_error.1 untold with unrated | ⟨rate, -, untold⟩
  · rcases Outcome.bind_eq_error.1 unrated with unknown | ⟨_, -, unusable⟩
    · cases found.symm.trans unknown
    · exact Error.exists_of_ofRate unusable
  rcases Outcome.bind_eq_error.1 untold with unconverted | ⟨_, -, untold⟩
  · exact Error.exists_of_ofConversion unconverted
  rcases Outcome.bind_eq_error.1 untold with unconverted | ⟨_, -, told⟩
  · exact Error.exists_of_ofConversion unconverted
  · cases told

end RowChanged
end Books

namespace LimitChange

variable {change : LimitChange} {books after : Books}

theorem rowChanged (h : change.apply books = .ok after) :
    ∃ row changed, Books.RowChanged change.user row changed books after := by
  cases change with
  | expense request now =>
    obtain ⟨row, changed, rowChanged, -⟩ := Books.rowChanged_writeExpense h
    exact ⟨row, changed, rowChanged⟩
  | limit user amount => exact Books.rowChanged_setLimit h
  | restart user =>
    obtain ⟨row, rowChanged⟩ := Books.rowChanged_resetLimit h
    exact ⟨row, _, rowChanged⟩

/-- Where the limits could be told before, they can be told after the change. -/
theorem exists_limitStatus {status : LimitStatus} (solvent : books.Solvent) (fits : change.Fits)
    (told : books.limitStatus change.user = .ok status) (h : change.apply books = .ok after) :
    ∃ status', after.limitStatus change.user = .ok status' := by
  have bounds {row : User} (found : books.store.user? change.user = some row) :=
    solvent.limits_le row (Rows.get?_eq_some found).1
  cases change with
  | expense request now =>
    obtain ⟨row, changed, rowChanged, booked⟩ := Books.rowChanged_writeExpense h
    obtain ⟨nonneg, le⟩ := bounds rowChanged.found
    rcases booked with rfl | ⟨base, base_pos, affordable, rfl⟩
    · exact rowChanged.exists_limitStatus told (solvent.limited rowChanged.found) rfl nonneg le
    · have lower : row.currentLimit - base ≤ row.defaultLimit := by omega
      exact rowChanged.exists_limitStatus told (solvent.limited rowChanged.found) rfl affordable lower
  | limit user amount =>
    obtain ⟨status', told', -, -⟩ := Books.limitStatus_of_setLimit fits h
    exact ⟨status', told'⟩
  | restart user =>
    obtain ⟨row, rowChanged⟩ := Books.rowChanged_resetLimit h
    obtain ⟨nonneg, le⟩ := bounds rowChanged.found
    exact rowChanged.exists_limitStatus told (solvent.limited rowChanged.found) rfl
      (nonneg.trans le) le_rfl

end LimitChange

/-! ## On a machine -/

namespace Machine

variable {machine : Machine} {command : Command} {change : LimitChange}

theorem run_limitChange (changes : LimitChange.ofCommand? machine.instant command = some change) :
    machine.run command 0 =
      machine.withProcess.loaded fun _ machine => machine.onBooks change.command := by
  have waitsNot : command.waits = false := by
    cases command <;> first | rfl | cases changes
  rw [run_of_waits waitsNot]
  cases command <;> cases changes <;> rfl

/-- A home that does not open or a change that fails leaves the machine as it is opened. Otherwise the
change has been made, and the command fails exactly if the limits cannot be told. -/
theorem run_limitChange_cases
    (changes : LimitChange.ofCommand? machine.instant command = some change) :
    (∃ e, (machine.run command 0) = (.error e, machine.opening)) ∨
      ∃ after, change.apply machine.opening.books = .ok after ∧
        (machine.run command 0).2 = machine.opening.withStore after.store ∧
        ∀ e, (machine.run command 0).1 = .error e ↔ after.limitStatus change.user = .error e := by
  rw [run_limitChange changes, loaded_eq]
  cases opens : machine.load.1 with
  | error e => exact Or.inl ⟨e, rfl⟩
  | ok configuration =>
    have opened := opened_opening opens
    have unchanged : machine.opening.withStore machine.opening.books.store = machine.opening :=
      congrArg (fun home => { machine.opening with home }) opened.withStore_store
    have onBooks : machine.opening.onBooks change.command =
        ((change.command machine.opening.books).1,
          machine.opening.withStore (change.command machine.opening.books).2.store) := rfl
    simp only [onBooks]
    cases applied : change.apply machine.opening.books with
    | error e =>
      rw [LimitChange.command_of_error applied, unchanged]
      exact Or.inl ⟨e, rfl⟩
    | ok after =>
      obtain ⟨left, fails⟩ := LimitChange.command_of_ok applied
      rw [left]
      exact Or.inr ⟨after, rfl, rfl, fails⟩

/-- What users have at home is the same. A home that had been opened before is the same altogether. -/
structure Untouched (machine after : Machine) : Prop where
  holdings : machine.home.store.SameHoldings after.home.store
  home : ∀ configuration, machine.home.Opened configuration →
    machine.home.store.outOfReach = [] → after.home = machine.home

theorem untouched_opening (machine : Machine) : machine.Untouched machine.opening where
  holdings := machine.sameHoldings_opening
  home _ opened reached := by
    rcases machine.opening_home with same | loaded
    · exact same
    · exact loaded.trans (congrArg Prod.snd (opened.load reached))

/-- A command that fails has touched nothing, or its change has been made and the limits could not be told
afterwards. Setting a limit touches nothing when it fails. Wherever writers, report calls and workers have
come to, the other commands do not either, if the limits could be told before; nor do they, as long as
currencies are known, if they fail with anything but a conversion. -/
theorem failures_untouched_or_untold {e : Error}
    (changes : LimitChange.ofCommand? machine.instant command = some change) (fits : change.Fits)
    (failed : (machine.run command 0).1 = .error e) :
    (machine.Untouched (machine.run command 0).2 ∨
      ∃ after, change.apply machine.opening.books = .ok after ∧
        (machine.run command 0).2 = machine.opening.withStore after.store ∧
        after.limitStatus change.user = .error e) ∧
    (∀ user amount, change = .limit user amount → machine.Untouched (machine.run command 0).2) ∧
    (∀ settings limit desk actions status, 0 < limit → FitsInt64 limit → desk.books.Vacant →
      machine.opening.books = (ReportRun.ofActions settings limit desk actions).world.desk.books →
      machine.opening.books.limitStatus change.user = .ok status →
      machine.Untouched (machine.run command 0).2) ∧
    (machine.opening.home.store.outOfReach = [] →
      (∀ row, machine.opening.home.store.user? change.user = some row →
        ∃ known, machine.opening.home.store.currency? row.currency = some known) →
      (∀ fault, e ≠ .conversionFailure fault) → machine.Untouched (machine.run command 0).2) := by
  rcases run_limitChange_cases changes with ⟨e', ran⟩ | ⟨after, applied, left, fails⟩
  · have untouched : machine.Untouched (machine.run command 0).2 := by
      rw [ran]
      exact machine.untouched_opening
    exact ⟨Or.inl untouched, fun _ _ _ => untouched, fun _ _ _ _ _ _ _ _ _ _ => untouched,
      fun _ _ _ => untouched⟩
  · have untold : after.limitStatus change.user = .error e := (fails e).1 failed
    have neverTold {status : LimitStatus} (told : after.limitStatus change.user = .ok status) :
        machine.Untouched (machine.run command 0).2 := by
      rw [untold] at told
      cases told
    refine ⟨Or.inr ⟨after, applied, left, untold⟩, ?_, ?_, ?_⟩
    · rintro user amount rfl
      obtain ⟨status, told, -⟩ := Books.limitStatus_of_setLimit fits applied
      exact neverTold told
    · intro settings limit desk actions status limit_pos limit_fits vacant reached told
      have solvent : machine.opening.books.Solvent := by
        rw [reached]
        exact ReportRun.solvent_ofActions settings limit_pos limit_fits vacant actions
      obtain ⟨status', told'⟩ := LimitChange.exists_limitStatus solvent fits told applied
      exact neverTold told'
    · intro reached known noConversion
      obtain ⟨row, changed, rowChanged⟩ := LimitChange.rowChanged applied
      obtain ⟨currency, lookup⟩ := known row rowChanged.found
      obtain ⟨fault, same⟩ := rowChanged.limitStatus_eq_error reached lookup untold
      exact absurd same (noConversion fault)

/-- The error that a command ends with. -/
def failure? (result : Outcome Output) : Option Error :=
  match result with
  | .ok _ => none
  | .error e => some e

theorem failure?_eq_some {result : Outcome Output} {e : Error} :
    failure? result = some e ↔ result = .error e := by
  cases result <;> simp [failure?]

/-- A desk that shares its cache, before a user comes and makes a category. -/
def quietDesk : Desk :=
  { books := { store := { currencies := sampleStore.currencies }, cache := .shared } }

def firstCategory : List ReportAction :=
  [.ledger (.perform (.addUser 1)), .ledger (.perform (.addCategory 1 "food"))]

/-- Of a user who can be told the limits, an expense under a category that there is not touches nothing. -/
theorem failures_untouched_noCategory :
    let books := (ReportRun.ofActions sharedSettings 1000000 quietDesk firstCategory).world.desk.books
    let machine := sampleMachine books.store 0
    let command : Command := .expenseAdd 1 "rent" ⟨500⟩ none
    let change : LimitChange :=
      .expense { user := 1, category := "rent", amount := ⟨500⟩, time := machine.instant } machine.instant
    LimitChange.ofCommand? machine.instant command = some change ∧ change.Fits ∧
      (machine.run command 0).1 = .error (.categoryNotFound "rent") ∧
      0 < (1000000 : Int) ∧ FitsInt64 1000000 ∧ quietDesk.books.Vacant ∧
      machine.opening.books = books ∧
      machine.opening.books.limitStatus 1 = .ok ⟨"RUB", ⟨1000000⟩, ⟨1000000⟩⟩ ∧
      machine.Untouched (machine.run command 0).2 := by
  intro books machine command change
  have changes : LimitChange.ofCommand? machine.instant command = some change := rfl
  have failed : (machine.run command 0).1 = .error (.categoryNotFound "rent") :=
    failure?_eq_some.1 (by decide +kernel)
  have vacant : quietDesk.books.Vacant := ⟨rfl, rfl, rfl, rfl, nofun⟩
  have reached : machine.opening.books = books := by decide +kernel
  have told : machine.opening.books.limitStatus 1 = .ok ⟨"RUB", ⟨1000000⟩, ⟨1000000⟩⟩ := by
    decide +kernel
  have limit_pos : 0 < (1000000 : Int) := by decide
  have limit_fits : FitsInt64 1000000 := by decide
  have untouched := (failures_untouched_or_untold changes trivial failed).2.2.1 sharedSettings 1000000 quietDesk
    firstCategory _ limit_pos limit_fits vacant reached told
  exact ⟨changes, trivial, failed, limit_pos, limit_fits, vacant, reached, told, untouched⟩

/-- A user sets the highest limit that there is; then a currency gets the rate 2, and becomes the one of the
user. -/
def highLimit : List MachineStep :=
  [.run (.userAdd 1), .run (.categoryAdd 1 "food"), .run (.limitSet 1 ⟨maxInt64⟩),
    .run .currencyRefresh, .run (.currencySet 1 "USD")]

/-- Then a command that fails has recorded an expense, and repeated it records another one. One that fails
as well has started the limit over. -/
theorem limits_untold :
    let machine := (play 1 highLimit (sampleMachine {} 0)).2
    let first := machine.run (.expenseAdd 1 "food" ⟨100⟩ none) 0
    let second := first.2.run (.expenseAdd 1 "food" ⟨100⟩ none) 0
    let third := second.2.run (.limitReset 1) 0
    let recorded (machine : Machine) := machine.home.store.expenses.map Expense.amount
    let left (machine : Machine) := machine.home.store.users.map User.currentLimit
    let message (result : Outcome Output) := (failure? result).map Error.message
    message first.1 =
        some "currency conversion failed: 9223372036854775807 at rate 2 is out of range" ∧
      message second.1 = message first.1 ∧ message third.1 = message first.1 ∧
      [machine, first.2, second.2].map recorded = [[], [50], [50, 50]] ∧
      [machine, first.2, second.2, third.2].map left =
        [[maxInt64], [maxInt64 - 50], [maxInt64 - 100], [maxInt64]] := by
  decide +kernel

end Machine
end ExpenseLedger
