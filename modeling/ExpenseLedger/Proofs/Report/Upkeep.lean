import ExpenseLedger.Proofs.Report.Job
import ExpenseLedger.Proofs.Store.Frame
import ExpenseLedger.Proofs.Store.Rates

/-!
# The upkeep of the report cache

Whatever changes for a user drops the finished reports of that user, so what an operation leaves in
the cache concerns users for whom nothing has changed: the tables `Keep` it. Beside that each
operation leaves the books `Orderly`.
-/

namespace ExpenseLedger

/-! ## What is left in the cache -/

/-- The entries that are left were there before, and nothing has changed for their users. -/
def Store.Keeps (store after : Store) : Prop :=
  ∀ row ∈ after.cachedReports, row ∈ store.cachedReports ∧
    ∀ user since, row.key = CacheKey.key user since → store.SameFor after user

namespace Store.Keeps

variable {store after : Store}

/-- A change that concerns nobody. -/
theorem of_sameFor (cached : after.cachedReports = store.cachedReports)
    (same : ∀ user, store.SameFor after user) : store.Keeps after := by
  intro row member
  rw [cached] at member
  exact ⟨member, fun user _ _ => same user⟩

/-- A change that concerns one user, whose reports are dropped. -/
theorem invalidate (store : Store) {books : Books} (shared : books.cache = .shared)
    (all : books.store.outOfReach = []) (cached : books.store.cachedReports = store.cachedReports)
    {user : Int} (same : ∀ other, other ≠ user → store.SameFor books.store other) :
    store.Keeps (books.invalidate user).store := by
  rw [Books.invalidate_eq shared all]
  intro row member
  obtain ⟨inCache, kept⟩ := List.mem_filter.1 member
  rw [cached] at inCache
  refine ⟨inCache, fun other since key => ?_⟩
  have different : other ≠ user := by
    rintro rfl
    rw [key, CacheKey.inRangeOf_key] at kept
    cases kept
  exact (same other different).trans (.of_same rfl ⟨rfl, rfl, rfl, rfl⟩)

end Store.Keeps

/-- Books between two operations: the tables fit together, their numbers fit 64 bits, and the cache
is in the order of its keys. -/
structure Books.Orderly (books : Books) : Prop extends Idle books where
  sound : books.store.Sound
  fitting : books.store.Fitting
  ascending : Rows.Ascending CachedReport.key books.store.cachedReports

namespace Books.Orderly

variable {books : Books}

/-- A change of users, categories, expenses and currencies. -/
theorem withStore (orderly : books.Orderly) (store : Store)
    (outOfReach : store.outOfReach = books.store.outOfReach)
    (messages : store.messages = books.store.messages)
    (cached : store.cachedReports = books.store.cachedReports) (sound : store.Sound)
    (fitting : store.Fitting) : Books.Orderly { books with store } where
  shared := orderly.shared
  reached := outOfReach.trans orderly.reached
  noMessages := messages.trans orderly.noMessages
  sound := sound
  fitting := fitting
  ascending := by
    show Rows.Ascending CachedReport.key store.cachedReports
    rw [cached]
    exact orderly.ascending

/-- A change of the cache. -/
theorem withCache (orderly : books.Orderly) {cachedReports : List CachedReport}
    (ascending : Rows.Ascending CachedReport.key cachedReports) :
    Books.Orderly { books with store := { books.store with cachedReports } } where
  shared := orderly.shared
  reached := orderly.reached
  noMessages := orderly.noMessages
  sound := orderly.sound.of_same ⟨rfl, rfl, rfl, rfl⟩
  fitting := orderly.fitting.of_same ⟨rfl, rfl, rfl, rfl⟩
  ascending := ascending

theorem invalidate (orderly : books.Orderly) (user : Int) : (books.invalidate user).Orderly := by
  rw [Books.invalidate_eq orderly.shared orderly.reached]
  exact orderly.withCache (orderly.ascending.filter _)

end Books.Orderly

/-! ## What each operation keeps -/

theorem Books.Orderly.refl_keeps {books : Books} (orderly : books.Orderly) :
    books.Orderly ∧ books.store.Keeps books.store :=
  ⟨orderly, .of_sameFor rfl fun _ => .of_same rfl (.refl _)⟩

theorem LedgerOp.Effect.orderly {limit : Int} {books after : Books} {events : List LedgerEvent}
    (effect : LedgerOp.Effect limit books events after) (orderly : books.Orderly) :
    after.Orderly ∧ books.store.Keeps after.store := by
  have sound := effect.sound orderly.sound
  have fitting := orderly.fitting
  cases effect with
  | nothing => exact ⟨orderly, .of_sameFor rfl fun _ => .of_same rfl (.refl _)⟩
  | created user currency absent =>
    refine ⟨orderly.withStore _ rfl rfl rfl sound (fitting.of_same (Store.sameEntries_putUser _ _)),
      .of_sameFor rfl fun _ => .putUser fun old found => ?_⟩
    rw [absent] at found
    cases found
  | erased user =>
    have changed := orderly.withStore (books.store.withoutUser user) rfl rfl rfl
      (orderly.sound.withoutUser user) (fitting.withoutUser user)
    exact ⟨changed.invalidate user, .invalidate books.store changed.shared changed.reached
      rfl fun other different => .withoutUser_of_ne orderly.sound different⟩
  | numberSpent fits =>
    exact ⟨orderly.withStore _ rfl rfl rfl sound ⟨fitting.ids, fitting.expenses⟩,
      .of_sameFor rfl fun _ => ⟨fun _ found => found, fun _ => rfl⟩⟩
  | categoryMade user name fits absent =>
    exact ⟨orderly.withStore _ rfl rfl rfl sound (fitting.withCategory fits),
      .of_sameFor rfl fun _ => .withCategory orderly.sound⟩
  | limitSet row amount found positive fits =>
    refine ⟨orderly.withStore _ rfl rfl rfl sound (fitting.of_same (Store.sameEntries_putUser _ _)),
      .of_sameFor rfl fun _ => .putUser fun old same => ?_⟩
    cases found.symm.trans same
    rfl
  | limitRestored row found =>
    refine ⟨orderly.withStore _ rfl rfl rfl sound (fitting.of_same (Store.sameEntries_putUser _ _)),
      .of_sameFor rfl fun _ => .putUser fun old same => ?_⟩
    cases found.symm.trans same
    rfl
  | allRestored =>
    exact ⟨orderly.withStore _ rfl rfl rfl sound
      (fitting.of_same (Store.sameEntries_withLimitsRestored _)),
      .of_sameFor rfl fun _ => .withLimitsRestored⟩
  | currencyChanged row currency found =>
    have same := Store.sameEntries_putUser books.store { row with currency }
    have changed := orderly.withStore (books.store.putUser { row with currency })
      rfl rfl rfl (orderly.sound.of_same same) (fitting.of_same same)
    exact ⟨changed.invalidate row.id, .invalidate books.store changed.shared changed.reached
      rfl fun other different => .putUser_of_ne different.symm⟩
  | ratesStored currencies =>
    exact ⟨orderly.withStore _ rfl rfl rfl sound (fitting.of_same ⟨rfl, rfl, rfl, rfl⟩),
      .of_sameFor rfl fun _ => .of_same rfl ⟨rfl, rfl, rfl, rfl⟩⟩

/-- An expense that is written is one new row, with a charge perhaps, and then the reports of its
user are dropped. -/
theorem Books.writeExpense_eq_ok {books after : Books} {request : ExpenseRequest} {now : Instant}
    (h : books.writeExpense request now = .ok after) :
    ∃ (category : Category) (base : Int) (store : Store),
      books.store.categoryNamed? request.user request.categoryName = some category ∧
      0 < base ∧ FitsInt64 base ∧ request.record now category.id base books.store = .ok store ∧
      after = Books.invalidate { books with store } request.user := by
  obtain ⟨currency, -, fromCategory⟩ := Outcome.bind_eq_ok.1 h
  obtain ⟨id, named, fromPrice⟩ := Outcome.bind_eq_ok.1 fromCategory
  obtain ⟨base, priced, fromRecord⟩ := Outcome.bind_eq_ok.1 fromPrice
  obtain ⟨middle, recording, done⟩ := Outcome.bind_eq_ok.1 fromRecord
  obtain ⟨store, recorded, rfl⟩ := Books.withStore_eq_ok.1 recording
  obtain ⟨category, found, rfl⟩ := Writing.readCategory_eq_ok named
  obtain rfl := Except.ok.inj done
  obtain ⟨positive, fits⟩ := Writing.price_eq_ok priced
  exact ⟨category, base, store, found, positive, fits, recorded, rfl⟩

theorem Books.Orderly.writeExpense {books after : Books} {request : ExpenseRequest} {now : Instant}
    (orderly : books.Orderly) (shown : request.time.Representable)
    (h : books.writeExpense request now = .ok after) :
    after.Orderly ∧ books.store.Keeps after.store := by
  obtain ⟨category, base, store, named, -, fits, recorded, rfl⟩ := Books.writeExpense_eq_ok h
  obtain ⟨row, found, -, booked⟩ := Store.insertExpense_eq_ok recorded
  obtain ⟨member, owner, -⟩ := Store.categoryNamed?_eq_some named
  have filed : ∃ row ∈ books.store.categories, row.id = category.id ∧ row.user = request.user :=
    ⟨category, member, rfl, owner⟩
  have numbers : FitsInt64 category.id ∧ FitsInt64 request.time.seconds ∧ FitsInt64 base :=
    ⟨orderly.fitting.ids category member, Message.fitsInt64_of_representable shown, fits⟩
  let expense : NewExpense :=
    { user := request.user, category := category.id, time := request.time, amount := base }
  rcases booked with ⟨-, rfl⟩ | ⟨-, -, rfl⟩
  · have changed := orderly.withStore
      (books.store.withExpense (books.store.nextExpenseRow expense)) rfl rfl rfl
      (orderly.sound.withExpense rfl filed) (orderly.fitting.withExpense numbers)
    exact ⟨changed.invalidate _, .invalidate books.store changed.shared changed.reached
      rfl fun other different => .withExpense_of_ne different.symm⟩
  · have same := Store.sameEntries_putUser books.store (Store.charged row base)
    have changed := orderly.withStore
      ((books.store.putUser (Store.charged row base)).withExpense
        (books.store.nextExpenseRow expense)) rfl rfl rfl
      ((orderly.sound.of_same same).withExpense rfl filed)
      ((orderly.fitting.of_same same).withExpense numbers)
    have id : row.id = request.user := Store.user?_id found
    refine ⟨changed.invalidate _, .invalidate books.store changed.shared changed.reached
      rfl fun other different => .trans (.putUser_of_ne ?_) (.withExpense_of_ne different.symm)⟩
    show row.id ≠ other
    rw [id]
    exact different.symm

theorem ExchangeRates.exists_batch {url : Url} {codes : List String} {peer : Http.Peer}
    {store after : Store} {count : Nat}
    (h : (refresh url codes peer store).1 = .ok (count, after)) :
    ∃ batch, store.storeRates batch = .ok after := by
  unfold refresh at h
  split at h
  · cases h
  · split at h
    · cases h
    · obtain ⟨rates, -, h⟩ := Outcome.bind_eq_ok.1 h
      obtain ⟨stored, storing, h⟩ := Outcome.bind_eq_ok.1 h
      cases h
      exact ⟨_, storing⟩

/-- Fresh rates are stored in the currency table and nowhere else. -/
theorem ExchangeRates.refresh_eq_ok {url : Url} {codes : List String} {peer : Http.Peer}
    {store after : Store} {count : Nat}
    (h : (refresh url codes peer store).1 = .ok (count, after)) :
    ∃ currencies, after = { store with currencies } := by
  obtain ⟨batch, stored⟩ := exists_batch h
  exact Store.storeRates_eq_ok stored

theorem Books.Orderly.withCurrencies {books : Books} (orderly : books.Orderly)
    (currencies : List Currency) :
    Books.Orderly { books with store := { books.store with currencies } } ∧
      books.store.Keeps { books.store with currencies } :=
  ⟨orderly.withStore _ rfl rfl rfl (orderly.sound.of_same ⟨rfl, rfl, rfl, rfl⟩)
      (orderly.fitting.of_same ⟨rfl, rfl, rfl, rfl⟩),
    .of_sameFor rfl fun _ => .of_same rfl ⟨rfl, rfl, rfl, rfl⟩⟩

/-- Between two operations a report comes to one of the ends that it may come to. -/
theorem Books.Orderly.run_effect {books : Books} (orderly : books.Orderly) {job : ReportJob}
    (wellFormed : job.WellFormed) (now : Int) :
    ∃ result, (job.run now books).1.result? = some result ∧
      ReportJob.Effect job now books result (job.run now books).2.books :=
  ReportJob.run_effect wellFormed orderly.toIdle
    (fun _ member => Store.fits_of_mem_expenseRows orderly.fitting member) now

/-- A report leaves the tables as they are. What it puts into the cache is the report of the
tables. -/
theorem ReportJob.Effect.orderly {job : ReportJob} {now : Int} {books after : Books}
    {result : Outcome Report} (effect : Effect job now books result after)
    (orderly : books.Orderly) :
    after.Orderly ∧ (∀ user, books.store.SameFor after.store user) ∧
      ∀ row ∈ after.store.cachedReports, row ∈ books.store.cachedReports ∨
        ∃ report, row.key = CacheKey.key job.user job.since ∧
          row.body = report.toJson.toText ∧
          books.store.reportOf job.user job.since = .ok report := by
  have served : Books.Orderly { books with store := served books.store } :=
    orderly.withStore _ rfl rfl rfl (orderly.sound.of_same ⟨rfl, rfl, rfl, rfl⟩)
      (orderly.fitting.of_same ⟨rfl, rfl, rfl, rfl⟩)
  cases effect with
  | hit report found =>
    exact ⟨orderly, fun _ => .of_same rfl (.refl _), fun row member => Or.inl member⟩
  | unsent e reason =>
    exact ⟨orderly, fun _ => .of_same rfl (.refl _), fun row member => Or.inl member⟩
  | failed e reason =>
    exact ⟨served, fun _ => .of_same rfl ⟨rfl, rfl, rfl, rfl⟩, fun row member => Or.inl member⟩
  | made report direct =>
    have ascending := Store.ascending_put
      (orderly.ascending.filter fun row => decide (now + job.delay < row.expiresAt))
      (books.store.cacheRow (now + job.delay) job.cacheTtl job.user job.since report)
    refine ⟨served.withCache ascending, fun _ => .of_same rfl ⟨rfl, rfl, rfl, rfl⟩,
      fun row member => ?_⟩
    rcases Rows.mem_put member with rfl | old
    · exact Or.inr ⟨report, rfl, rfl, direct⟩
    · exact Or.inl (List.mem_filter.1 old).1

end ExpenseLedger
