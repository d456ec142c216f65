import ExpenseLedger.Proofs.Report.Upkeep

/-!
# Cached reports are the reports of the tables

Operations on the books that are done one after the other, each of them to its end: those of the
ledger, expenses, exchange rates, the clock, and reports. Whatever makes a finished report of a user
stale drops it, so a report in the shared cache is always the one that the tables make now, at the
rate that was known when it was stored. `BookRun.Coherent` is the invariant; every operation keeps
it because it `Keeps` the reports that it leaves in the cache.
-/

namespace ExpenseLedger

/-- An operation on the books that is done before the next one begins. -/
inductive BookAction where
  | ledger (op : LedgerOp)
  | write (request : ExpenseRequest)
  | refresh (url : Url) (codes : List String) (peer : Http.Peer)
  | pass (millis : Nat)
  | report (job : ReportJob)

/-- The books and the clock, in milliseconds. -/
structure BookWorld where
  books : Books
  now : Int

namespace BookWorld

/-- The tables. -/
def store (world : BookWorld) : Store :=
  world.books.store

/-- The world with other books, if there are any. -/
def withBooks (world : BookWorld) (books : Outcome Books) : BookWorld :=
  match books with
  | .ok books => { world with books }
  | .error _ => world

/-- The world after one more operation, where new users get the limit that is configured. One that
fails changes nothing. -/
def step (limit : Int) (world : BookWorld) : BookAction → BookWorld
  | .ledger op => world.withBooks ((op.perform limit world.books).map Prod.snd)
  | .write request =>
    world.withBooks (world.books.writeExpense request (Instant.ofMillis world.now))
  | .refresh url codes peer =>
    world.withBooks ((ExchangeRates.refresh url codes peer world.store).1.map fun (_, store) =>
      { world.books with store })
  | .pass millis => { world with now := world.now + millis }
  | .report job => { books := (job.run world.now world.books).2.books, now := world.now + job.delay }

end BookWorld

/-- The types of the numbers hold them, and reports are answered in time. -/
def BookAction.WellFormed : BookAction → Prop
  | .write request => request.time.Representable
  | .report job => job.WellFormed
  | _ => True

/-- A run: the world as it is, and as it was before each operation, the latest first. -/
structure BookRun where
  world : BookWorld
  past : List BookWorld := []

namespace BookRun

/-- All worlds of a run. -/
def worlds (run : BookRun) : List BookWorld :=
  run.world :: run.past

/-- The run after one more operation. -/
def step (limit : Int) (run : BookRun) (action : BookAction) : BookRun :=
  { world := run.world.step limit action, past := run.worlds }

/-- The run of a list of operations, from a world on. -/
def ofActions (limit : Int) (start : BookWorld) (actions : List BookAction) : BookRun :=
  actions.foldl (step limit) { world := start }

/-- The entry was put into the cache by the operation that found the world `origin`, and has been
there since. -/
def StoredAt (run : BookRun) (row : CachedReport) (origin : BookWorld) : Prop :=
  ∃ newer older, run.worlds = newer ++ origin :: older ∧
    row ∉ origin.store.cachedReports ∧ ∀ world ∈ newer, row ∈ world.store.cachedReports

theorem StoredAt.step {run : BookRun} {row : CachedReport} {origin : BookWorld} {limit : Int}
    {action : BookAction} (stored : run.StoredAt row origin)
    (still : row ∈ (run.step limit action).world.store.cachedReports) :
    (run.step limit action).StoredAt row origin := by
  obtain ⟨newer, older, split, absent, present⟩ := stored
  refine ⟨(run.step limit action).world :: newer, older, ?_, absent, ?_⟩
  · show (run.step limit action).world :: run.worlds = _
    rw [split, List.cons_append]
  · intro world member
    rcases List.mem_cons.1 member with rfl | inNewer
    · exact still
    · exact present world inNewer

/-- An entry that an operation has put in. -/
theorem StoredAt.now {run : BookRun} {row : CachedReport} {limit : Int} {action : BookAction}
    (absent : row ∉ run.world.store.cachedReports)
    (present : row ∈ (run.step limit action).world.store.cachedReports) :
    (run.step limit action).StoredAt row run.world := by
  refine ⟨[(run.step limit action).world], run.past, rfl, absent, ?_⟩
  intro world member
  rw [List.mem_singleton.1 member]
  exact present

end BookRun

/-! ## Operations other than reports -/

/-- The operation makes no report. -/
def BookAction.IsQuiet : BookAction → Prop
  | .report _ => False
  | _ => True

/-- What is no report leaves the books orderly, and keeps what it leaves in the cache. -/
theorem BookWorld.step_of_isQuiet {limit : Int} {world : BookWorld} {action : BookAction}
    (orderly : world.books.Orderly) (wellFormed : action.WellFormed) (quiet : action.IsQuiet) :
    (world.step limit action).books.Orderly ∧
      world.store.Keeps (world.step limit action).store := by
  cases action with
  | ledger op =>
    cases performed : op.perform limit world.books with
    | ok result =>
      simp only [step, performed, store]
      exact (LedgerOp.perform_effect performed).orderly orderly
    | error e =>
      simp only [step, performed, store]
      exact orderly.refl_keeps
  | write request =>
    cases written : world.books.writeExpense request (Instant.ofMillis world.now) with
    | ok books =>
      simp only [step, written, store]
      exact orderly.writeExpense wellFormed written
    | error e =>
      simp only [step, written, store]
      exact orderly.refl_keeps
  | refresh url codes peer =>
    cases asked : (ExchangeRates.refresh url codes peer world.store).1 with
    | ok result =>
      obtain ⟨count, after⟩ := result
      obtain ⟨currencies, rfl⟩ := ExchangeRates.refresh_eq_ok asked
      simp only [step, asked]
      exact orderly.withCurrencies currencies
    | error e =>
      simp only [step, asked]
      exact orderly.refl_keeps
  | pass millis => exact orderly.refl_keeps
  | report job => exact quiet.elim

/-! ## The entries of the cache -/

/-- The books with an empty report cache. -/
def Books.withoutReports (books : Books) : Books :=
  { books with store := { books.store with cachedReports := [] } }

namespace BookRun

/-- The entry holds the report of a user since an instant that the tables make now, at the rate
that the user's currency had when the entry was stored. -/
structure Holds (run : BookRun) (row : CachedReport) (user : Int) (since : Instant)
    (origin : BookWorld) (rate : Rate) (report : Report) : Prop where
  key : row.key = CacheKey.key user since
  stored : run.StoredAt row origin
  rated : ∃ currency, run.world.store.currencyOf? user = some currency ∧
    origin.store.rate currency = .ok rate
  body : Json.Reader.whole Report.fromJson row.body = .ok report
  made : Report.aggregate (run.world.store.expenseRows user since.seconds) rate = .ok report

/-- The books are in order, and every entry of the cache holds a report. -/
structure Coherent (run : BookRun) : Prop where
  orderly : run.world.books.Orderly
  holds : ∀ row ∈ run.world.store.cachedReports, ∃ user since origin rate report,
    run.Holds row user since origin rate report

section Steps

variable {limit : Int} {run : BookRun} {action : BookAction}

/-- An entry that is left goes on to hold what it held. -/
theorem Holds.step {row : CachedReport} {user : Int} {since : Instant} {origin : BookWorld}
    {rate : Rate} {report : Report} (holds : run.Holds row user since origin rate report)
    (still : row ∈ (run.step limit action).world.store.cachedReports)
    (same : run.world.store.SameFor (run.step limit action).world.store user) :
    (run.step limit action).Holds row user since origin rate report where
  key := holds.key
  stored := holds.stored.step still
  rated := by
    obtain ⟨currency, found, rated⟩ := holds.rated
    exact ⟨currency, same.currency currency found, rated⟩
  body := holds.body
  made := by
    rw [same.rows]
    exact holds.made

theorem Coherent.step_of_isQuiet (coherent : run.Coherent) (wellFormed : action.WellFormed)
    (quiet : action.IsQuiet) : (run.step limit action).Coherent := by
  obtain ⟨orderly, keeps⟩ : (run.world.step limit action).books.Orderly ∧ _ :=
    BookWorld.step_of_isQuiet coherent.orderly wellFormed quiet
  refine ⟨orderly, fun row member => ?_⟩
  obtain ⟨inCache, same⟩ := keeps row member
  obtain ⟨user, since, origin, rate, report, holds⟩ := coherent.holds row inCache
  exact ⟨user, since, origin, rate, report, holds.step member (same user since holds.key)⟩

theorem Coherent.step_report {job : ReportJob} (coherent : run.Coherent)
    (wellFormed : job.WellFormed) : (run.step limit (.report job)).Coherent := by
  obtain ⟨result, -, effect⟩ := coherent.orderly.run_effect wellFormed run.world.now
  obtain ⟨orderly, same, entries⟩ := effect.orderly coherent.orderly
  refine ⟨orderly, fun row member => ?_⟩
  by_cases inCache : row ∈ run.world.store.cachedReports
  · obtain ⟨user, since, origin, rate, report, holds⟩ := coherent.holds row inCache
    exact ⟨user, since, origin, rate, report, holds.step member (same user)⟩
  · rcases entries row member with old | ⟨report, key, body, direct⟩
    · exact absurd old inCache
    · obtain ⟨owner, rate, found, rated, made⟩ := Store.reportOf_eq_ok direct
      have currency : run.world.store.currencyOf? job.user = some owner.currency := by
        unfold Store.currencyOf?
        rw [show run.world.store.user? job.user = some owner from found]
        rfl
      exact ⟨job.user, job.since, run.world, rate, report, {
        key := key
        stored := .now inCache member
        rated := ⟨owner.currency, (same job.user).currency _ currency, rated⟩
        body := by
          rw [body]
          exact Report.whole_toText (Report.fits_of_aggregate made)
        made := by
          have rows : (run.step limit (.report job)).world.store.expenseRows job.user
              job.since.seconds = run.world.store.expenseRows job.user job.since.seconds :=
            (same job.user).rows _
          rw [rows]
          exact made }⟩

theorem Coherent.step (coherent : run.Coherent) (wellFormed : action.WellFormed) :
    (run.step limit action).Coherent := by
  cases action with
  | report job => exact coherent.step_report wellFormed
  | _ => exact coherent.step_of_isQuiet wellFormed trivial

end Steps

/-! ## The theorem -/

theorem coherent_ofActions {limit : Int} {actions : List BookAction}
    (wellFormed : ∀ action ∈ actions, action.WellFormed) {run : BookRun} (coherent : run.Coherent) :
    (actions.foldl (step limit) run).Coherent := by
  induction actions generalizing run with
  | nil => exact coherent
  | cons action actions ih =>
    exact ih (fun other member => wellFormed other (List.mem_cons_of_mem _ member))
      (coherent.step (wellFormed action List.mem_cons_self))

/-- If there is an unexpired entry for a user and an instant, the rate of the user's currency is the
one that was known when the entry was stored. -/
def SameRate (run : BookRun) (user : Int) (since : Instant) : Prop :=
  ∀ row ∈ run.world.store.cachedReports, row.key = CacheKey.key user since →
    run.world.now < row.expiresAt → ∀ origin owner, run.StoredAt row origin →
      run.world.store.user? user = some owner →
        origin.store.rate owner.currency = run.world.store.rate owner.currency

/-- An entry is found under a user and an instant as the report that the tables make now, at the
rate that the user's currency had when the entry was stored. -/
def IsFresh (run : BookRun) (row : CachedReport) (user : Int) (since : Instant) : Prop :=
  ∃ owner origin rate report, run.world.store.user? user = some owner ∧
    run.StoredAt row origin ∧ origin.store.rate owner.currency = .ok rate ∧
    run.world.store.cachedReport run.world.now user since = .ok (some report) ∧
    run.world.store.IsReport user since rate report

/-- Nothing in the cache is stale, and while the rates stay as they are, reports from the cache,
from a worker and from the tables are the same. -/
structure ReportsFresh (run : BookRun) : Prop where
  keyed : ∀ row ∈ run.world.store.cachedReports, ∃ user since, row.key = CacheKey.key user since
  fresh : ∀ row ∈ run.world.store.cachedReports, ∀ user since,
    row.key = CacheKey.key user since → run.world.now < row.expiresAt → run.IsFresh row user since
  direct : ∀ user since report, run.world.store.reportOf user since = .ok report →
    ∃ owner rate, run.world.store.user? user = some owner ∧
      run.world.store.rate owner.currency = .ok rate ∧
      run.world.store.IsReport user since rate report
  cached : ∀ user since report,
    run.world.store.cachedReport run.world.now user since = .ok (some report) →
    run.SameRate user since → run.world.store.reportOf user since = .ok report
  worked : ∀ job : ReportJob, job.WellFormed → FitsInt64 run.world.store.nextMessage →
    (job.run run.world.now run.world.books.withoutReports).1.result? =
      some (run.world.store.reportOf job.user job.since)
  answered : ∀ job : ReportJob, job.WellFormed → FitsInt64 run.world.store.nextMessage →
    run.SameRate job.user job.since →
    (job.run run.world.now run.world.books).1.result? =
      some (run.world.store.reportOf job.user job.since)

section Fresh

variable {run : BookRun} {row : CachedReport} {user : Int} {since : Instant} {report : Report}

/-- What an entry of the cache holds under a key. -/
theorem Coherent.holds_key (coherent : run.Coherent) (member : row ∈ run.world.store.cachedReports)
    (key : row.key = CacheKey.key user since) :
    ∃ origin rate report, run.Holds row user since origin rate report := by
  obtain ⟨user', since', origin, rate, report, holds⟩ := coherent.holds row member
  obtain ⟨rfl, seconds⟩ := CacheKey.eq_of_key_eq (key.symm.trans holds.key)
  refine ⟨origin, rate, report, key, holds.stored, holds.rated, holds.body, ?_⟩
  rw [seconds]
  exact holds.made

theorem Coherent.isFresh (coherent : run.Coherent) (member : row ∈ run.world.store.cachedReports)
    (key : row.key = CacheKey.key user since) (live : run.world.now < row.expiresAt) :
    run.IsFresh row user since := by
  obtain ⟨origin, rate, report, holds⟩ := coherent.holds_key member key
  obtain ⟨currency, found, rated⟩ := holds.rated
  obtain ⟨owner, isOwner, rfl⟩ := Option.map_eq_some_iff.1 found
  exact ⟨owner, origin, rate, report, isOwner, holds.stored, rated,
    Store.cachedReport_of_mem coherent.orderly.reached coherent.orderly.ascending member key live
      holds.body, Store.isReport_of_aggregate holds.made⟩

/-- A report that is found in the cache is that of the tables, if the rate is the same. -/
theorem Coherent.reportOf_of_cached (coherent : run.Coherent)
    (hit : run.world.store.cachedReport run.world.now user since = .ok (some report))
    (sameRate : run.SameRate user since) :
    run.world.store.reportOf user since = .ok report := by
  obtain ⟨row, member, key, live, body⟩ := Store.cachedReport_eq_ok_some hit
  obtain ⟨origin, rate, report', holds⟩ := coherent.holds_key member key
  obtain ⟨currency, found, rated⟩ := holds.rated
  obtain ⟨owner, isOwner, rfl⟩ := Option.map_eq_some_iff.1 found
  obtain rfl : report = report' := Except.ok.inj (body.symm.trans holds.body)
  have reached (tables : List Table) : run.world.store.reaches tables = true :=
    Store.reaches_of_outOfReach coherent.orderly.reached tables
  have read : run.world.store.user user = .ok owner := Store.user_eq_ok.2 ⟨reached _, isOwner⟩
  have now := sameRate row member key live origin owner holds.stored isOwner
  rw [Store.reportOf_eq read (now.symm.trans rated) (reached _)]
  exact holds.made

/-- What is asked for and not found is the report of the tables. -/
theorem result_of_effect {job : ReportJob} {now : Int} {books after : Books}
    {result : Outcome Report} (effect : job.Effect now books result after)
    (fits : FitsInt64 books.store.nextMessage)
    (hits : ∀ report, books.store.cachedReport now job.user job.since = .ok (some report) →
      books.store.reportOf job.user job.since = .ok report) :
    result = books.store.reportOf job.user job.since := by
  cases effect with
  | hit report found => exact (hits report found).symm
  | unsent e reason =>
    rcases reason with direct | full
    · exact direct.symm
    · exact absurd fits full
  | failed e reason => exact reason.symm
  | made report direct => exact direct.symm

theorem Coherent.reportsFresh (coherent : run.Coherent) : run.ReportsFresh where
  keyed := by
    intro row member
    obtain ⟨user, since, origin, rate, report, holds⟩ := coherent.holds row member
    exact ⟨user, since, holds.key⟩
  fresh := fun row member user since key live => coherent.isFresh member key live
  direct := by
    intro user since report direct
    obtain ⟨owner, rate, found, rated, made⟩ := Store.reportOf_eq_ok direct
    exact ⟨owner, rate, found, rated, Store.isReport_of_aggregate made⟩
  cached := fun user since report hit sameRate => coherent.reportOf_of_cached hit sameRate
  worked := by
    intro job wellFormed fits
    have uncached : run.world.books.withoutReports.Orderly :=
      coherent.orderly.withCache List.Pairwise.nil
    obtain ⟨result, ended, effect⟩ := uncached.run_effect wellFormed run.world.now
    have direct : result = run.world.books.withoutReports.store.reportOf job.user job.since := by
      apply result_of_effect effect fits
      intro report hit
      obtain ⟨row, member, -⟩ := Store.cachedReport_eq_ok_some hit
      cases member
    rw [ended, direct]
    rfl
  answered := by
    intro job wellFormed fits sameRate
    obtain ⟨result, ended, effect⟩ := coherent.orderly.run_effect wellFormed run.world.now
    exact ended.trans (congrArg some (result_of_effect effect fits fun report hit =>
      coherent.reportOf_of_cached hit sameRate))

end Fresh
end BookRun

/-- Books with which a home begins: no categories, no expenses, nothing in the queue or in the
cache. -/
structure Books.IsNew (books : Books) : Prop extends Idle books where
  noCategories : books.store.categories = []
  noExpenses : books.store.expenses = []
  noReports : books.store.cachedReports = []

theorem BookRun.coherent_of_isNew {start : BookWorld} (new : start.books.IsNew) :
    BookRun.Coherent { world := start } where
  orderly := {
    toIdle := new.toIdle
    sound := .of_empty new.noCategories new.noExpenses
    fitting := ⟨by simp [new.noCategories], by simp [new.noExpenses]⟩
    ascending := by
      rw [new.noReports]
      exact List.Pairwise.nil }
  holds := by
    intro row member
    rw [show start.store.cachedReports = [] from new.noReports] at member
    cases member

/-- In every run of completed operations, an unexpired entry of the report cache is the report that
the tables make now, at the rate at which it was stored; and as long as the rate is the same, it
does not matter whether a report comes from the cache, from a worker or from the tables. -/
theorem reports_fresh {limit : Int} {start : BookWorld} (new : start.books.IsNew)
    {actions : List BookAction} (wellFormed : ∀ action ∈ actions, action.WellFormed) :
    (BookRun.ofActions limit start actions).ReportsFresh :=
  (BookRun.coherent_ofActions wellFormed (BookRun.coherent_of_isNew new)).reportsFresh

/-- Two users write an expense each and ask for a report, one of a worker elsewhere and one of a
worker of its own; the first report outlives the expense of the second user. -/
def twoReports : List BookAction :=
  let write (user : Int) (category : String) (minor : Int) : BookAction :=
    .write { user, category, amount := ⟨minor⟩, time := .epoch }
  let report (user : Int) (answering : Answering) : BookAction :=
    .report { id := default, user, since := .epoch, cacheTtl := 600000, timeout := 30000
              delay := 5, answering }
  [.ledger (.addUser 1), .ledger (.addUser 2), .ledger (.addCategory 1 "food"),
    .ledger (.addCategory 2 "rent"), write 1 "food" 1250,
    report 1 (.overHttp 1 2 (.v4 default 7000)), write 2 "rent" 90000, .pass 1000,
    report 2 (.inProcess 3)]

theorem twoReports_fresh :
    newBooks.IsNew ∧ (∀ action ∈ twoReports, action.WellFormed) ∧
      let run := BookRun.ofActions 100000 { books := newBooks, now := 0 } twoReports
      run.world.now = 1010 ∧
      ([1, 2].map fun user =>
        (run.world.store.cachedReport run.world.now user .epoch).toOption.map
          (Option.map Report.entries)) =
        [some (some [("food", 1250)]), some (some [("rent", 90000)])] ∧
      run.ReportsFresh := by
  have new : newBooks.IsNew := ⟨⟨rfl, rfl, rfl⟩, rfl, rfl, rfl⟩
  have wellFormed : ∀ action ∈ twoReports, action.WellFormed := by
    simp only [twoReports, List.forall_mem_cons, BookAction.WellFormed, true_and]
    exact ⟨by decide, ⟨by decide, by decide, by decide⟩, by decide,
      ⟨by decide, by decide, by decide⟩, nofun⟩
  exact ⟨new, wellFormed, by decide +kernel, by decide +kernel, reports_fresh new wellFormed⟩

end ExpenseLedger
