import ExpenseLedger.Proofs.Cache
import ExpenseLedger.Proofs.Ledger.Run
import ExpenseLedger.Proofs.Store.Booked
import Mathlib.Data.List.Forall2

/-!
# The ledger reads back what was written

A history is a run of commands, each of which is done before the next one begins. It records every
command, the newest first, with the books that it found and whether it succeeded. The expenses that
a user has written since it was last erased can be told from the record alone, with the rate at
which each of them was converted (`Performed.Tells`), and these are exactly the expenses that are
read back.
-/

namespace ExpenseLedger

/-- A command that is done before the next one begins. -/
inductive LedgerCommand where
  | operate (op : LedgerOp)
  | write (request : ExpenseRequest) (now : Instant)

/-- Performs a command, where new users get the limit that is configured. -/
def LedgerCommand.perform (limit : Int) (books : Books) : LedgerCommand → Outcome Books
  | .operate op => do
    let (_, books) ← op.perform limit books
    .ok books
  | .write request now => books.writeExpense request now

/-- What a row that is read back says of its expense. -/
structure Entry where
  name : String
  time : Int
  amount : Int
  deriving DecidableEq

def ExpenseRow.entry (row : ExpenseRow) : Entry :=
  { name := row.categoryName, time := row.time, amount := row.amount }

/-- A command, the books that it found, and whether it succeeded. -/
structure Performed where
  command : LedgerCommand
  before : Books
  succeeded : Bool

namespace Performed

/-- The user was erased. -/
def erases (user : Int) (performed : Performed) : Bool :=
  match performed.command with
  | .operate (.resetUser erased) => performed.succeeded && decide (erased = user)
  | _ => false

/-- An expense of the user was written. -/
def writes (user : Int) (performed : Performed) : Bool :=
  match performed.command with
  | .write request _ => performed.succeeded && decide (request.user = user)
  | _ => false

/-- The entry is about the expense that was written: it has the trimmed name of the category, the
time in whole seconds, and the amount converted at the rate that the user's currency had. -/
def Tells (performed : Performed) (entry : Entry) : Prop :=
  ∃ request now row, performed.command = .write request now ∧
    performed.before.store.user? request.user = some row ∧
    performed.before.store.toBase request.amount.minor row.currency = .ok entry.amount ∧
    entry.name = trim request.category ∧ entry.time = request.time.seconds

end Performed

/-- The books, and what was done to them. -/
structure LedgerHistory where
  books : Books
  performed : List Performed := []

namespace LedgerHistory

/-- The history after one more command. A command that fails changes nothing. -/
def step (limit : Int) (history : LedgerHistory) (command : LedgerCommand) : LedgerHistory :=
  match command.perform limit history.books with
  | .ok books => { books, performed := ⟨command, history.books, true⟩ :: history.performed }
  | .error _ => { history with performed := ⟨command, history.books, false⟩ :: history.performed }

/-- The history of a list of commands, from some books on. -/
def ofCommands (limit : Int) (start : Books) (commands : List LedgerCommand) : LedgerHistory :=
  commands.foldl (step limit) { books := start }

/-- The expenses that a user has written since it was last erased, the oldest first. -/
def writesOf (history : LedgerHistory) (user : Int) : List Performed :=
  ((history.performed.takeWhile fun performed => !performed.erases user).filter
    fun performed => performed.writes user).reverse

theorem writesOf_of_erases {books : Books} {latest : Performed} {performed : List Performed}
    {user : Int} (erases : latest.erases user = true) :
    writesOf ⟨books, latest :: performed⟩ user = [] := by
  unfold writesOf
  rw [List.takeWhile_cons_of_neg (by simp [erases]), List.filter_nil, List.reverse_nil]

theorem writesOf_of_writes {books : Books} {latest : Performed} {performed : List Performed}
    {user : Int} (erases : latest.erases user = false) (writes : latest.writes user = true) :
    writesOf ⟨books, latest :: performed⟩ user = writesOf ⟨books, performed⟩ user ++ [latest] := by
  unfold writesOf
  rw [List.takeWhile_cons_of_pos (by simp [erases]), List.filter_cons_of_pos (by simp [writes]),
    List.reverse_cons]

theorem writesOf_of_other {books : Books} {latest : Performed} {performed : List Performed}
    {user : Int} (erases : latest.erases user = false) (writes : latest.writes user = false) :
    writesOf ⟨books, latest :: performed⟩ user = writesOf ⟨books, performed⟩ user := by
  unfold writesOf
  rw [List.takeWhile_cons_of_pos (by simp [erases]), List.filter_cons_of_neg (by simp [writes])]

end LedgerHistory

/-! ## What commands do to the booked rows -/

namespace LedgerOp

variable {limit : Int} {books after : Books} {op : LedgerOp} {events : List LedgerEvent}

theorem Effect.outOfReach (effect : Effect limit books events after) :
    after.store.outOfReach = books.store.outOfReach := by
  have invalidated (books : Books) (user : Int) :
      (books.invalidate user).store.outOfReach = books.store.outOfReach := by
    obtain ⟨cachedReports, dropped⟩ := books.invalidate_store user
    rw [dropped]
  cases effect with
  | erased user => exact invalidated _ user
  | currencyChanged row currency found => exact invalidated _ row.id
  | _ => rfl

/-- Apart from erasing the user, operations leave its booked rows as they are. -/
theorem bookedRows_of_perform (sound : books.store.Sound)
    (h : op.perform limit books = .ok (events, after)) {user : Int}
    (other : op ≠ .resetUser user) :
    after.store.bookedRows user = books.store.bookedRows user := by
  cases op with
  | addUser id =>
    obtain ⟨⟨created, books'⟩, performed, h⟩ := Outcome.bind_eq_ok.1 h
    obtain ⟨⟨created', store⟩, added, performed⟩ := Outcome.bind_eq_ok.1 performed
    cases performed
    cases h
    rcases Store.addUser_eq_ok added with ⟨-, rfl, -⟩ | ⟨-, -, -, rfl⟩
    · rfl
    · exact (Store.sameEntries_putUser _ _).bookedRows user
  | resetUser gone =>
    obtain ⟨books', performed, h⟩ := Outcome.bind_eq_ok.1 h
    obtain rfl := Books.resetUser_eq_ok performed
    cases h
    have different : user ≠ gone := fun same => other (congrArg resetUser same.symm)
    rw [(Books.sameRows_invalidate _ gone).bookedRows user]
    exact Store.bookedRows_withoutUser_of_ne sound different
  | addCategory id name =>
    obtain ⟨⟨created, books'⟩, performed, h⟩ := Outcome.bind_eq_ok.1 h
    obtain ⟨⟨created', store⟩, added, performed⟩ := Outcome.bind_eq_ok.1 performed
    cases performed
    cases h
    obtain ⟨-, ⟨-, -, rfl⟩ | ⟨-, -, -, rfl⟩⟩ := Store.addCategory_eq_ok added
    · rfl
    · exact Store.bookedRows_withCategory sound
  | setLimit id amount =>
    obtain ⟨books', performed, h⟩ := Outcome.bind_eq_ok.1 h
    cases h
    obtain ⟨row, base, -, -, -, rfl⟩ := Books.setLimit_eq_ok performed
    exact (Store.sameEntries_putUser _ _).bookedRows user
  | resetLimit id =>
    obtain ⟨books', performed, h⟩ := Outcome.bind_eq_ok.1 h
    cases h
    obtain ⟨row, -, rfl⟩ := Books.resetLimit_eq_ok performed
    exact (Store.sameEntries_putUser _ _).bookedRows user
  | resetAllLimits =>
    obtain ⟨⟨count, books'⟩, performed, h⟩ := Outcome.bind_eq_ok.1 h
    obtain ⟨⟨count', store⟩, reset, performed⟩ := Outcome.bind_eq_ok.1 performed
    cases performed
    cases h
    obtain rfl := Store.resetAllLimits_eq_ok reset
    exact (Store.sameEntries_withLimitsRestored _).bookedRows user
  | changeCurrency id code =>
    obtain ⟨⟨currency, books'⟩, performed, h⟩ := Outcome.bind_eq_ok.1 h
    cases h
    obtain ⟨row, -, rfl⟩ := Books.changeCurrency_eq_ok performed
    rw [(Books.sameRows_invalidate _ id).bookedRows user]
    exact (Store.sameEntries_putUser _ _).bookedRows user
  | storeRates batch =>
    obtain ⟨books', performed, h⟩ := Outcome.bind_eq_ok.1 h
    cases h
    obtain ⟨store, stored, rfl⟩ := Books.withStore_eq_ok.1 performed
    obtain ⟨currencies, rfl⟩ := Store.storeRates_eq_ok stored
    rfl

theorem bookedRows_of_resetUser {user : Int} (sound : books.store.Sound)
    (h : (LedgerOp.resetUser user).perform limit books = .ok (events, after)) :
    after.store.bookedRows user = [] := by
  obtain ⟨books', performed, h⟩ := Outcome.bind_eq_ok.1 h
  obtain rfl := Books.resetUser_eq_ok performed
  cases h
  rw [(Books.sameRows_invalidate _ user).bookedRows user]
  exact Store.bookedRows_withoutUser_self sound user

end LedgerOp

/-! ## What a written expense does -/

namespace Books

variable {books after : Books} {request : ExpenseRequest} {now : Instant}

/-- An expense that is written was converted at the rate of its user's currency and is one new row,
filed under the category of the name that the request has. -/
structure Writes (books : Books) (request : ExpenseRequest) (row : Expense) (middle : Store) :
    Prop where
  found : ∃ user, books.store.user? request.user = some user ∧
    books.store.toBase request.amount.minor user.currency = .ok row.amount
  named : ∃ category, books.store.categoryNamed? request.user request.categoryName = some category ∧
    category.id = row.category
  user : row.user = request.user
  time : row.time = request.time.seconds
  new : row.id = books.store.nextExpense
  same : Store.SameEntries books.store middle
  outOfReach : middle.outOfReach = books.store.outOfReach

theorem writeExpense_writes (h : books.writeExpense request now = .ok after) :
    ∃ row middle, books.Writes request row middle ∧
      after = Books.invalidate { books with store := middle.withExpense row } request.user := by
  obtain ⟨currency, read, fromCategory⟩ := Outcome.bind_eq_ok.1 h
  obtain ⟨id, named, fromPrice⟩ := Outcome.bind_eq_ok.1 fromCategory
  obtain ⟨base, priced, fromRecord⟩ := Outcome.bind_eq_ok.1 fromPrice
  obtain ⟨written, recording, done⟩ := Outcome.bind_eq_ok.1 fromRecord
  obtain ⟨store, recorded, rfl⟩ := Books.withStore_eq_ok.1 recording
  obtain rfl := Except.ok.inj done
  obtain ⟨-, -, read⟩ := Outcome.bind_eq_ok.1 read
  obtain ⟨user, userRead, read⟩ := Outcome.bind_eq_ok.1 read
  obtain rfl := Except.ok.inj read
  obtain ⟨category, found, rfl⟩ := Writing.readCategory_eq_ok named
  have converted : books.store.toBase request.amount.minor user.currency = .ok base := by
    obtain ⟨converted, conversion, priced⟩ := Outcome.bind_eq_ok.1 priced
    split at priced
    · cases priced
      exact conversion
    · cases priced
  have writes (middle : Store) (same : Store.SameEntries books.store middle)
      (outOfReach : middle.outOfReach = books.store.outOfReach) :
      books.Writes request (books.store.nextExpenseRow
        { user := request.user, category := category.id, time := request.time, amount := base })
        middle :=
    ⟨⟨user, (Store.user_eq_ok.1 userRead).2, converted⟩, ⟨category, found, rfl⟩, rfl, rfl, rfl,
      same, outOfReach⟩
  obtain ⟨row, -, -, ⟨-, rfl⟩ | ⟨-, -, rfl⟩⟩ := Store.insertExpense_eq_ok recorded
  · exact ⟨_, _, writes books.store (.refl _) rfl, rfl⟩
  · exact ⟨_, _, writes _ (Store.sameEntries_putUser _ _) rfl, rfl⟩

namespace Writes

variable {row : Expense} {middle : Store} (writes : books.Writes request row middle)

include writes

theorem sound (sound : books.store.Sound) : (middle.withExpense row).Sound := by
  obtain ⟨category, named, filed⟩ := writes.named
  obtain ⟨member, owner, -⟩ := Store.categoryNamed?_eq_some named
  refine (sound.of_same writes.same).withExpense (writes.new.trans writes.same.nextExpense.symm) ?_
  rw [writes.same.categories, writes.user]
  exact ⟨category, member, filed, owner⟩

/-- The new row is the last one, and it tells what was written. -/
theorem bookedRows_self (sound : books.store.Sound) (now : Instant) :
    ∃ read : ExpenseRow,
      (middle.withExpense row).bookedRows request.user =
        books.store.bookedRows request.user ++ [read] ∧
      Performed.Tells ⟨.write request now, books, true⟩ read.entry := by
  obtain ⟨user, found, converted⟩ := writes.found
  obtain ⟨category, named, filed⟩ := writes.named
  obtain ⟨member, -, name⟩ := Store.categoryNamed?_eq_some named
  have inTable : middle.category? row.category = some category := by
    unfold Store.category?
    rw [writes.same.categories, ← filed]
    exact sound.ascending.get?_of_mem member
  have made : middle.expenseRow? row = some
      { categoryId := row.category, categoryName := category.name, time := row.time
        amount := row.amount } := by
    unfold Store.expenseRow?
    rw [inTable, Option.map_some]
  refine ⟨{ categoryId := row.category, categoryName := category.name, time := row.time
            amount := row.amount },
    ?_, request, now, user, rfl, found, converted, name, writes.time⟩
  have appended := Store.bookedRows_withExpense_self made
  rw [writes.user, writes.same.bookedRows] at appended
  exact appended

theorem bookedRows_of_ne {user : Int} (different : request.user ≠ user) :
    (middle.withExpense row).bookedRows user = books.store.bookedRows user := by
  rw [Store.bookedRows_withExpense_of_ne (writes.user.trans_ne different)]
  exact writes.same.bookedRows user

end Writes
end Books

/-! ## A history -/

namespace LedgerHistory

/-- The tables can be reached and fit together, and the booked rows of each user are what it has
written since it was last erased. -/
structure Kept (history : LedgerHistory) : Prop where
  reached : history.books.store.outOfReach = []
  sound : history.books.store.Sound
  told : ∀ user, List.Forall₂ Performed.Tells (history.writesOf user)
    ((history.books.store.bookedRows user).map ExpenseRow.entry)

variable {limit : Int} {history : LedgerHistory}

/-- A command that fails, like one that is about something else, adds nothing to what was
written. -/
theorem told_of_other (kept : history.Kept) {books : Books} {latest : Performed} {user : Int}
    (erases : latest.erases user = false) (writes : latest.writes user = false)
    (rows : books.store.bookedRows user = history.books.store.bookedRows user) :
    List.Forall₂ Performed.Tells (writesOf ⟨books, latest :: history.performed⟩ user)
      ((books.store.bookedRows user).map ExpenseRow.entry) := by
  rw [writesOf_of_other erases writes, rows]
  exact kept.told user

theorem kept_operate (limit : Int) (kept : history.Kept) (op : LedgerOp) :
    (history.step limit (.operate op)).Kept := by
  cases performed : op.perform limit history.books with
  | error e =>
    have failed : LedgerCommand.perform limit history.books (.operate op) = .error e := by
      simp only [LedgerCommand.perform, performed, bind, Except.bind]
    simp only [step, failed]
    refine ⟨kept.reached, kept.sound, fun user => told_of_other kept ?_ rfl rfl⟩
    cases op <;> rfl
  | ok result =>
    obtain ⟨events, after⟩ := result
    have done : LedgerCommand.perform limit history.books (.operate op) = .ok after := by
      simp only [LedgerCommand.perform, performed, bind, Except.bind]
    simp only [step, done]
    have effect := LedgerOp.perform_effect performed
    refine ⟨effect.outOfReach.trans kept.reached, effect.sound kept.sound, fun user => ?_⟩
    by_cases own : op = .resetUser user
    · subst own
      have none := LedgerOp.bookedRows_of_resetUser kept.sound performed
      rw [writesOf_of_erases (by simp [Performed.erases]), none]
      exact .nil
    · refine told_of_other kept ?_ rfl (LedgerOp.bookedRows_of_perform kept.sound performed own)
      unfold Performed.erases
      split
      · next erased same =>
        have different : erased ≠ user := by
          rintro rfl
          exact own (LedgerCommand.operate.inj same)
        simp [different]
      · rfl

theorem kept_write (limit : Int) (kept : history.Kept) (request : ExpenseRequest) (now : Instant) :
    (history.step limit (.write request now)).Kept := by
  cases performed : history.books.writeExpense request now with
  | error e =>
    have failed : LedgerCommand.perform limit history.books (.write request now) = .error e :=
      performed
    simp only [step, failed]
    exact ⟨kept.reached, kept.sound, fun user => told_of_other kept rfl rfl rfl⟩
  | ok after =>
    have done : LedgerCommand.perform limit history.books (.write request now) = .ok after :=
      performed
    simp only [step, done]
    obtain ⟨row, middle, writes, rfl⟩ := Books.writeExpense_writes performed
    have same := Books.sameRows_invalidate
      { history.books with store := middle.withExpense row } request.user
    constructor
    · obtain ⟨cachedReports, dropped⟩ := Books.invalidate_store
        { history.books with store := middle.withExpense row } request.user
      rw [dropped]
      exact writes.outOfReach.trans kept.reached
    · exact (writes.sound kept.sound).of_same same.toSameEntries
    · intro user
      by_cases own : request.user = user
      · subst own
        obtain ⟨read, rows, tells⟩ := writes.bookedRows_self kept.sound now
        rw [writesOf_of_writes rfl (by simp [Performed.writes]), same.bookedRows, rows,
          List.map_append, List.map_singleton]
        exact List.rel_append (kept.told request.user) (.cons tells .nil)
      · refine told_of_other kept rfl (by simp [Performed.writes, own]) ?_
        rw [same.bookedRows]
        exact writes.bookedRows_of_ne own

theorem kept_step (limit : Int) (kept : history.Kept) (command : LedgerCommand) :
    (history.step limit command).Kept := by
  cases command with
  | operate op => exact kept_operate limit kept op
  | write request now => exact kept_write limit kept request now

theorem kept_ofCommands (limit : Int) {start : Books} (reached : start.store.outOfReach = [])
    (noCategories : start.store.categories = []) (noExpenses : start.store.expenses = [])
    (commands : List LedgerCommand) : (ofCommands limit start commands).Kept := by
  have first : Kept { books := start } := by
    refine ⟨reached, .of_empty noCategories noExpenses, fun user => ?_⟩
    unfold Store.bookedRows
    rw [noExpenses]
    exact .nil
  exact List.foldlRecOn commands (step limit) first fun _ kept command _ =>
    kept_step limit kept command

/-- Whoever is not erased keeps its booked rows. -/
theorem bookedRows_sublist_step (limit : Int) (kept : history.Kept) {command : LedgerCommand}
    {user : Int} (other : command ≠ .operate (.resetUser user)) :
    (history.books.store.bookedRows user).Sublist
      ((history.step limit command).books.store.bookedRows user) := by
  cases performed : command.perform limit history.books with
  | error e =>
    simp only [step, performed]
    exact .refl _
  | ok after =>
    simp only [step, performed]
    cases command with
    | operate op =>
      obtain ⟨⟨events, after'⟩, performed, same⟩ := Outcome.bind_eq_ok.1 performed
      cases same
      have different : op ≠ .resetUser user := fun same => other (congrArg _ same)
      rw [LedgerOp.bookedRows_of_perform kept.sound performed different]
    | write request now =>
      obtain ⟨row, middle, writes, rfl⟩ := Books.writeExpense_writes performed
      rw [(Books.sameRows_invalidate _ request.user).bookedRows]
      by_cases own : request.user = user
      · subst own
        obtain ⟨read, rows, -⟩ := writes.bookedRows_self kept.sound now
        rw [rows]
        exact List.sublist_append_left _ _
      · rw [writes.bookedRows_of_ne own]

theorem bookedRows_sublist (limit : Int) {user : Int} {later : List LedgerCommand}
    (others : ∀ command ∈ later, command ≠ .operate (.resetUser user)) :
    ∀ {history : LedgerHistory}, history.Kept →
      (history.books.store.bookedRows user).Sublist
        ((later.foldl (step limit) history).books.store.bookedRows user) := by
  induction later with
  | nil => exact fun _ => .refl _
  | cons command later ih =>
    intro history kept
    have first := bookedRows_sublist_step limit kept (others command List.mem_cons_self)
    exact first.trans (ih (fun other member => others other (List.mem_cons_of_mem _ member))
      (kept_step limit kept command))

/-- What is read of a user from an instant on: one row for each expense that it has written since it
was last erased, dated in the second of the instant or later, in the order of time and within a
second in the order of writing. -/
structure ReadsBack (history : LedgerHistory) (user : Int) (since : Instant)
    (rows : List ExpenseRow) : Prop where
  read : history.books.readExpenses user since = .ok rows
  told : ∃ entries, List.Forall₂ Performed.Tells (history.writesOf user) entries ∧
    InOrder Entry.time since.seconds entries (rows.map ExpenseRow.entry)

theorem Kept.readsBack (kept : history.Kept) (user : Int) (since : Instant) :
    history.ReadsBack user since (history.books.store.expenseRows user since.seconds) where
  read := by
    unfold Books.readExpenses Store.expensesSince
    rw [Store.reach_of_outOfReach kept.reached]
    rfl
  told := by
    refine ⟨_, kept.told user, ?_⟩
    exact (history.books.store.expenseRows_inOrder user since.seconds).map fun _ => rfl

end LedgerHistory

/-- The ledger reads back what was written, whatever else is done, and as long as nobody erases the
user, what it has read stays the same. -/
theorem expenses_read_back (limit : Int) {start : Books} (reached : start.store.outOfReach = [])
    (noCategories : start.store.categories = []) (noExpenses : start.store.expenses = [])
    (commands : List LedgerCommand) (user : Int) (since : Instant) :
    ∃ rows, (LedgerHistory.ofCommands limit start commands).ReadsBack user since rows ∧
      ∀ later, (∀ command ∈ later, command ≠ .operate (.resetUser user)) →
        ∃ rows', rows.Sublist rows' ∧
          (LedgerHistory.ofCommands limit start (commands ++ later)).books.readExpenses user since =
            .ok rows' := by
  have kept := LedgerHistory.kept_ofCommands limit reached noCategories noExpenses
  refine ⟨_, (kept commands).readsBack user since, fun later others => ?_⟩
  refine ⟨_, ?_, ((kept (commands ++ later)).readsBack user since).read⟩
  have grown := LedgerHistory.bookedRows_sublist limit others (kept commands)
  unfold LedgerHistory.ofCommands at grown ⊢
  rw [List.foldl_append]
  exact (Store.expenseRows_inOrder _ user since.seconds).sublist
    (Store.expenseRows_inOrder _ user since.seconds) grown

/-- Somebody writes expenses of two seconds and before 1970, in two currencies. -/
def threeWrites : List LedgerCommand :=
  let write (name : String) (amount : Int) (time : Instant) : LedgerCommand :=
    .write { user := 1, category := name, amount := ⟨amount⟩, time } ⟨9000000, 0⟩
  [.operate (.addUser 1), .operate (.addCategory 1 "food"), write "food " 500 ⟨7, 900⟩,
    .operate (.storeRates [{ id := 1, code := "USD", rate := Binary64.ofInt 2 }]),
    .operate (.changeCurrency 1 "USD"), write " food" 500 ⟨-1, 5⟩, write "food" 400 ⟨7, 100⟩]

/-- The expense before 1970 is read first, the other two in the order in which they were written. -/
theorem readExpenses_threeWrites :
    (LedgerHistory.ofCommands 100 newBooks threeWrites).books.readExpenses 1 ⟨-1, 900⟩ =
      .ok [⟨1, "food", -1, 250⟩, ⟨1, "food", 7, 500⟩, ⟨1, "food", 7, 200⟩] := by
  have expenses : (LedgerHistory.ofCommands 100 newBooks threeWrites).books.store.expenses =
      [⟨1, 1, 1, 7, 500⟩, ⟨2, 1, 1, -1, 250⟩, ⟨3, 1, 1, 7, 200⟩] := by decide +kernel
  have categories : (LedgerHistory.ofCommands 100 newBooks threeWrites).books.store.categories =
      [⟨1, 1, "food"⟩] := by decide +kernel
  have reached : newBooks.store.outOfReach = [] := rfl
  have kept := LedgerHistory.kept_ofCommands 100 reached rfl rfl threeWrites
  rw [(kept.readsBack 1 ⟨-1, 900⟩).read]
  unfold Store.expenseRows Store.expenseRow? Store.category?
  rw [expenses, categories]
  simp [List.mergeSort, List.MergeSort.Internal.splitInTwo]

theorem expenses_read_back_threeWrites :
    newBooks.store.outOfReach = [] ∧ newBooks.store.categories = [] ∧
      newBooks.store.expenses = [] ∧
      (∃ rows, (LedgerHistory.ofCommands 100 newBooks threeWrites).ReadsBack 1 ⟨-1, 900⟩ rows ∧
        ∀ later, (∀ command ∈ later, command ≠ .operate (.resetUser 1)) →
          ∃ rows', rows.Sublist rows' ∧
            (LedgerHistory.ofCommands 100 newBooks (threeWrites ++ later)).books.readExpenses 1
              ⟨-1, 900⟩ = .ok rows') ∧
      (LedgerHistory.ofCommands 100 newBooks threeWrites).books.readExpenses 1 ⟨-1, 900⟩ =
        .ok [⟨1, "food", -1, 250⟩, ⟨1, "food", 7, 500⟩, ⟨1, "food", 7, 200⟩] :=
  ⟨rfl, rfl, rfl, expenses_read_back 100 rfl rfl rfl threeWrites 1 ⟨-1, 900⟩,
    readExpenses_threeWrites⟩

end ExpenseLedger
