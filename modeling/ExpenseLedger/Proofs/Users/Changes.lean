import ExpenseLedger.Commands.Accounts
import ExpenseLedger.Proofs.Report.Upkeep
import ExpenseLedger.Proofs.Users.View

/-!
# What the commands of a user change

`Store.Changes` are the changes that the commands of one user are made of. None of them can be seen
by anybody else, and each of them leaves the tables in order: `Store.InOrder`. Rows get numbers that
are never given twice; a command gives out one number at most.
-/

namespace ExpenseLedger

namespace Store

/-- Tables as a process finds them: everything can be reached, the rows fit together, and messages
have numbers that are not given again. Private streams belong to processes before it. -/
structure InOrder (process : Nat) (store : Store) : Prop where
  reached : store.outOfReach = []
  sound : store.Sound
  ascending : Rows.Ascending CachedReport.key store.cachedReports
  below : ∀ row ∈ store.messages, row.seq < store.nextMessage
  streams : ∀ row ∈ store.messages, ∀ consumer, row.owner = some consumer → consumer < process

/-- So many numbers from the next one on fit 64 bits. -/
def NumbersLeft (next : Int) (count : Nat) : Prop :=
  minInt64 ≤ next ∧ next + count ≤ maxInt64 + 1

/-- There are numbers for so many more rows of each kind. -/
structure RoomFor (count : Nat) (store : Store) : Prop where
  categories : NumbersLeft store.nextCategory count
  expenses : NumbersLeft store.nextExpense count
  messages : NumbersLeft store.nextMessage count

theorem NumbersLeft.fits {next : Int} {count : Nat} (numbers : NumbersLeft next (count + 1)) :
    FitsInt64 next := by
  obtain ⟨low, high⟩ := numbers
  push_cast at high
  exact ⟨low, by omega⟩

theorem NumbersLeft.mono {next : Int} {count fewer : Nat} (numbers : NumbersLeft next count)
    (h : fewer ≤ count) : NumbersLeft next fewer :=
  ⟨numbers.1, by have := numbers.2; omega⟩

theorem NumbersLeft.succ {next : Int} {count : Nat} (numbers : NumbersLeft next (count + 1)) :
    NumbersLeft (next + 1) count := by
  obtain ⟨low, high⟩ := numbers
  push_cast at high
  exact ⟨by omega, by omega⟩

theorem RoomFor.mono {store : Store} {count fewer : Nat} (room : store.RoomFor count)
    (h : fewer ≤ count) : store.RoomFor fewer :=
  ⟨room.categories.mono h, room.expenses.mono h, room.messages.mono h⟩

theorem InOrder.mono {store : Store} {process later : Nat} (inOrder : store.InOrder process)
    (h : process ≤ later) : store.InOrder later :=
  { inOrder with
    streams := fun row member consumer own =>
      Nat.lt_of_lt_of_le (inOrder.streams row member consumer own) h }

theorem InOrder.withCurrencies {store : Store} {process : Nat} (inOrder : store.InOrder process)
    (currencies : List Currency) : InOrder process { store with currencies } :=
  { inOrder with sound := inOrder.sound.of_same ⟨rfl, rfl, rfl, rfl⟩ }

/-- The changes that the commands of a user may make at a time, and how many numbers they give to
rows. -/
inductive Changes (user now : Int) : Nat → Store → Store → Prop
  | nothing {store : Store} : Changes user now 0 store store
  | userPut {store : Store} (row : User) (own : row.id = user) :
      Changes user now 0 store (store.putUser row)
  | erased {store : Store} : Changes user now 0 store (store.withoutUser user)
  | numberSpent {store : Store} : Changes user now 1 store store.withoutNextCategory
  | categoryMade {store : Store} (name : String) :
      Changes user now 1 store (store.withCategory (store.nextCategoryRow user name))
  | expenseBooked {store : Store} (row : Expense) (own : row.user = user)
      (new : row.id = store.nextExpense)
      (filed : ∃ category ∈ store.categories,
        category.id = row.category ∧ category.user = row.user) :
      Changes user now 1 store (store.withExpense row)
  | reportsDropped {store : Store} : Changes user now 0 store (store.withoutReports user)
  | reportKept {store : Store} (row : CachedReport)
      (own : CacheKey.inRangeOf user row.key = true) :
      Changes user now 0 store (store.withReport now row)
  | requestServed {store : Store} : Changes user now 1 store (ReportJob.served store)
  | requestSent {store : Store} (row : QueuedMessage) (new : row.seq = store.nextMessage)
      (shared : row.owner = none) : Changes user now 1 store (store.withRow row)
  | trans {first second : Nat} {store middle after : Store}
      (h : Changes user now first store middle) (h' : Changes user now second middle after) :
      Changes user now (first + second) store after

namespace Changes

variable {user now : Int} {count : Nat} {store after : Store}

theorem inOrder {process : Nat} (h : Changes user now count store after)
    (inOrder : store.InOrder process) : after.InOrder process := by
  induction h with
  | nothing => exact inOrder
  | userPut row own =>
    exact { inOrder with sound := inOrder.sound.of_same (sameEntries_putUser _ row) }
  | erased => exact { inOrder with sound := inOrder.sound.withoutUser user }
  | numberSpent => exact { inOrder with sound := inOrder.sound.withoutNextCategory }
  | categoryMade name => exact { inOrder with sound := inOrder.sound.withCategory }
  | expenseBooked row own new filed =>
    exact { inOrder with sound := inOrder.sound.withExpense new filed }
  | reportsDropped =>
    exact { inOrder with
      sound := inOrder.sound.of_same ⟨rfl, rfl, rfl, rfl⟩
      ascending := inOrder.ascending.filter _ }
  | reportKept row own =>
    exact { inOrder with
      sound := inOrder.sound.of_same ⟨rfl, rfl, rfl, rfl⟩
      ascending := ascending_put (inOrder.ascending.filter _) row }
  | @requestServed store =>
    exact { inOrder with
      sound := inOrder.sound.of_same ⟨rfl, rfl, rfl, rfl⟩
      below := fun row member => Int.lt_add_one_of_le (Int.le_of_lt (inOrder.below row member)) }
  | @requestSent store row new shared =>
    refine { inOrder with
      sound := inOrder.sound.of_same ⟨rfl, rfl, rfl, rfl⟩
      below := fun other member => ?_
      streams := fun other member consumer own => ?_ }
    · show other.seq < store.nextMessage + 1
      rcases List.mem_append.1 member with old | last
      · have := inOrder.below other old
        omega
      · rw [List.mem_singleton.1 last, new]
        exact Int.lt_succ _
    · rcases List.mem_append.1 member with old | last
      · exact inOrder.streams other old consumer own
      · rw [List.mem_singleton.1 last, shared] at own
        cases own
  | trans _ _ ih ih' => exact ih' (ih inOrder)

theorem roomFor {more : Nat} (h : Changes user now count store after)
    (room : store.RoomFor (more + count)) : after.RoomFor more := by
  induction h generalizing more with
  | numberSpent | categoryMade =>
    have fewer := room.mono (Nat.le_succ more)
    exact ⟨room.categories.succ, fewer.expenses, fewer.messages⟩
  | expenseBooked =>
    have fewer := room.mono (Nat.le_succ more)
    exact ⟨fewer.categories, room.expenses.succ, fewer.messages⟩
  | requestServed | requestSent =>
    have fewer := room.mono (Nat.le_succ more)
    exact ⟨fewer.categories, fewer.expenses, room.messages.succ⟩
  | trans _ _ ih ih' => exact ih' (ih (room.mono (by omega)))
  | _ => exact ⟨room.categories, room.expenses, room.messages⟩

theorem currencies (h : Changes user now count store after) :
    after.currencies = store.currencies := by
  induction h with
  | trans _ _ ih ih' => exact ih'.trans ih
  | _ => rfl

/-- Nobody else sees the changes. -/
theorem viewOf_of_ne {process : Nat} {other : Int} (h : Changes user now count store after)
    (inOrder : store.InOrder process) (different : other ≠ user) :
    after.viewOf other now = store.viewOf other now := by
  induction h with
  | userPut row own => exact viewOf_putUser_of_ne (own ▸ different.symm)
  | erased => exact viewOf_withoutUser_of_ne inOrder.sound different
  | categoryMade name => exact viewOf_withCategory_of_ne inOrder.sound different.symm
  | expenseBooked row own => exact viewOf_withExpense_of_ne (own ▸ different.symm)
  | reportsDropped => exact viewOf_withoutReports_of_ne different
  | reportKept row own => exact viewOf_withReport_of_ne own different
  | trans h h' ih ih' => exact (ih' (h.inOrder inOrder)).trans (ih inOrder)
  | _ => rfl

end Changes

/-- A user's command makes changes that are the user's own, and gives out one number at most. -/
def ChangesOnce (user now : Int) (store after : Store) : Prop :=
  ∃ count ≤ 1, Changes user now count store after

end Store

/-! ## Commands on accounts -/

namespace Books

variable {books after : Books} {user now : Int}

/-- Changes after which the reports of the user are dropped. -/
theorem changes_invalidate {store : Store} {count : Nat} {changed : Books}
    (shared : changed.cache = .shared) (reached : changed.store.outOfReach = [])
    (h : Store.Changes user now count store changed.store) (once : count ≤ 1) :
    store.ChangesOnce user now (changed.invalidate user).store := by
  rw [invalidate_eq shared reached]
  exact ⟨count + 0, once, .trans h .reportsDropped⟩

theorem addUser_changes {limit : Int} {created : Bool}
    (h : books.addUser user limit = .ok (created, after)) :
    books.store.ChangesOnce user now after.store := by
  obtain ⟨⟨created', store⟩, added, h⟩ := Outcome.bind_eq_ok.1 h
  cases h
  rcases Store.addUser_eq_ok added with ⟨-, rfl, -⟩ | ⟨-, -, -, rfl⟩
  · exact ⟨0, Nat.zero_le 1, .nothing⟩
  · exact ⟨0, Nat.zero_le 1, .userPut _ rfl⟩

theorem resetUser_changes (opened : books.Open) (h : books.resetUser user = .ok after) :
    books.store.ChangesOnce user now after.store := by
  obtain rfl := resetUser_eq_ok h
  exact changes_invalidate opened.shared opened.reached .erased (Nat.zero_le 1)

theorem addCategory_changes {name : String} {created : Bool}
    (h : books.addCategory user name = .ok (created, after)) :
    books.store.ChangesOnce user now after.store := by
  obtain ⟨⟨created', store⟩, added, h⟩ := Outcome.bind_eq_ok.1 h
  cases h
  obtain ⟨-, ⟨-, -, rfl⟩ | ⟨-, -, -, rfl⟩⟩ := Store.addCategory_eq_ok added
  · exact ⟨1, Nat.le_refl 1, .numberSpent⟩
  · exact ⟨1, Nat.le_refl 1, .categoryMade _⟩

theorem setLimit_changes {amount : Amount} (h : books.setLimit user amount = .ok after) :
    books.store.ChangesOnce user now after.store := by
  obtain ⟨row, base, found, -, -, rfl⟩ := setLimit_eq_ok h
  have own : row.id = user := Store.user?_id found
  exact ⟨0, Nat.zero_le 1, .userPut _ own⟩

theorem resetLimit_changes (h : books.resetLimit user = .ok after) :
    books.store.ChangesOnce user now after.store := by
  obtain ⟨row, found, rfl⟩ := resetLimit_eq_ok h
  have own : row.id = user := Store.user?_id found
  exact ⟨0, Nat.zero_le 1, .userPut _ own⟩

theorem changeCurrency_changes (opened : books.Open) {code : String} {currency : Currency}
    (h : books.changeCurrency user code = .ok (currency, after)) :
    books.store.ChangesOnce user now after.store := by
  obtain ⟨row, found, rfl⟩ := changeCurrency_eq_ok h
  have own : row.id = user := Store.user?_id found
  exact changes_invalidate opened.shared opened.reached (.userPut _ own) (Nat.zero_le 1)

theorem writeExpense_changes (opened : books.Open) {request : ExpenseRequest} {present : Instant}
    (h : books.writeExpense request present = .ok after) :
    books.store.ChangesOnce request.user now after.store := by
  obtain ⟨category, base, store, named, -, -, recorded, rfl⟩ := writeExpense_eq_ok h
  obtain ⟨row, found, -, booked⟩ := Store.insertExpense_eq_ok recorded
  obtain ⟨member, owner, -⟩ := Store.categoryNamed?_eq_some named
  have filed : ∃ row ∈ books.store.categories, row.id = category.id ∧ row.user = request.user :=
    ⟨category, member, rfl, owner⟩
  rcases booked with ⟨-, rfl⟩ | ⟨-, -, rfl⟩
  · exact changes_invalidate opened.shared opened.reached (.expenseBooked _ rfl rfl filed)
      (Nat.le_refl 1)
  · have own : row.id = request.user := Store.user?_id found
    have charged : Store.Changes request.user now 0 books.store
        (books.store.putUser (Store.charged row base)) := .userPut _ own
    exact changes_invalidate opened.shared opened.reached
      (charged.trans (.expenseBooked _ rfl rfl filed)) (Nat.le_refl (0 + 1))

end Books

/-! ## Reports -/

theorem ReportJob.stored_eq (job : ReportJob) (later : Int) (report : Report) (store : Store) :
    job.stored later report store = (ReportJob.served store).withReport later
      (store.cacheRow later job.cacheTtl job.user job.since report) :=
  rfl

/-- A report changes what its user has in the cache, and perhaps one number of a message. -/
theorem ReportJob.outcome_changes (job : ReportJob) (now : Int) (store : Store) :
    store.ChangesOnce job.user (now + job.delay) (job.outcome now store).2 := by
  have served : store.ChangesOnce job.user (now + job.delay) (ReportJob.served store) :=
    ⟨1, Nat.le_refl 1, .requestServed⟩
  unfold outcome
  split
  · exact ⟨0, Nat.zero_le 1, .nothing⟩
  · unfold outcomeOfMiss
    split
    · unfold answer
      split
      · split
        · next report _ =>
          have own : CacheKey.inRangeOf job.user (store.cacheRow (now + job.delay) job.cacheTtl
              job.user job.since report).key = true := CacheKey.inRangeOf_key job.user job.since
          rw [stored_eq]
          exact ⟨1, Nat.le_refl 1, .trans .requestServed (.reportKept _ own)⟩
        · exact served
      · exact served
    · exact ⟨0, Nat.zero_le 1, .nothing⟩

end ExpenseLedger
