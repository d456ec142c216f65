import ExpenseLedger.Proofs.Cache.Contents
import ExpenseLedger.Proofs.Report.Effects
import ExpenseLedger.Proofs.Report.Interleaving
import ExpenseLedger.Proofs.Report.Totals

/-!
# Where reports come from

A report that a call returns is its own or comes from the cache, and into the cache it has come
from a call that has aggregated it, whatever else goes on around the desk. So each was `Made` by
some call for the same user and window: `Sourced` is the invariant of a run that begins with an
empty cache.
-/

namespace ExpenseLedger

/-! ## Who puts reports into the cache -/

/-- Of all that goes on around the desk, only a call that has aggregated its report puts one into
the cache, under the key of the call. -/
theorem ReportWorld.step_holds {settings : ReportSettings} {limit : Int} {world : ReportWorld}
    (fits : ∀ (caller : Nat) (call : ReportCall) (report : Report),
      world.calls[caller]? = some call → call.stage = .aggregated report → report.Fits)
    (action : ReportAction) {key : String} {report : Report}
    (held : (world.step settings limit action).desk.books.Holds key report) :
    world.desk.books.Holds key report ∨ ∃ (caller : Nat) (call : ReportCall),
      world.calls[caller]? = some call ∧ call.stage = .aggregated report ∧
        key = CacheKey.key call.user call.since := by
  have touches := world.step_touches settings limit action
  generalize (world.step settings limit action).desk.books = after at touches held
  cases touches with
  | nothing _ => exact Or.inl held
  | queued _ messages nextMessage => exact Or.inl held
  | ledger action =>
    exact Or.inl ((LedgerRun.step_prunes limit _ action).addsNoEntry.addsNoReport key report held)
  | called caller now call found _ touches =>
    cases touches with
    | nothing => exact Or.inl held
    | queued rate stage messages nextMessage => exact Or.inl held
    | looked stage result _ looked =>
      exact Or.inl ((Books.cachedReport_addsNoEntry looked).addsNoReport key report held)
    | kept own stage _ stored =>
      have totals := fits caller call own found stage
      rcases Books.holds_of_cacheReport totals stored held with old | ⟨sameKey, rfl⟩
      · exact Or.inl old
      · exact Or.inr ⟨caller, call, found, stage, sameKey⟩

/-! ## Where reports come from -/

/-- Some call for the user and the window has made the report, from the rows that the tables held
while it was waiting, and at the rate that it had read. -/
def Made (worlds : List ReportWorld) (user : Int) (since : Instant) (report : Report) : Prop :=
  ∃ maker rate rows, Rated worlds maker user rate ∧ ReadWhileWaiting worlds maker user since rows ∧
    Report.aggregate rows rate = .ok report

section Made

variable {worlds : List ReportWorld} {log : List ReportEvent} {user : Int} {since start : Instant}
  {report : Report}

theorem Made.mono {next : ReportWorld} (made : Made worlds user since report) :
    Made (next :: worlds) user since report := by
  obtain ⟨maker, rate, rows, rated, read, sums⟩ := made
  exact ⟨maker, rate, rows, rated.mono, read.mono, sums⟩

/-- Windows that start in the same second have the same expenses. -/
theorem Made.of_seconds (made : Made worlds user since report)
    (same : since.seconds = start.seconds) : Made worlds user start report := by
  obtain ⟨maker, rate, rows, rated, ⟨world, member, waits, read⟩, sums⟩ := made
  refine ⟨maker, rate, rows, rated, ⟨world, member, waits, ?_⟩, sums⟩
  unfold Store.expensesSince at read ⊢
  rw [← same]
  exact read

theorem Aggregated.made {caller : Nat} {call : ReportCall}
    (aggregated : Aggregated worlds log caller call report) :
    Made worlds call.user call.since report := by
  obtain ⟨rate, rows, rated, ⟨reply, -, -, read⟩, sums⟩ := aggregated
  exact ⟨caller, rate, rows, rated, read, sums⟩

end Made

/-- The invariant of a run that begins with an empty cache: every report that the cache has held,
and every one that a call has returned, was made by some call. -/
structure Sourced (run : ReportRun) : Prop where
  held : ∀ world ∈ run.worlds, ∀ user since report,
    world.desk.books.Holds (CacheKey.key user since) report → Made run.worlds user since report
  returned : ∀ world ∈ run.worlds, ∀ (caller : Nat) (call : ReportCall) (report : Report),
    world.calls[caller]? = some call → call.stage = .finished (.ok report) →
      Made run.worlds call.user call.since report

namespace Paired

variable {used : List Uuid} {run : ReportRun} {caller : Nat} {call : ReportCall} {report : Report}

theorem made_of_aggregated (paired : Paired used run)
    (found : run.world.calls[caller]? = some call) (stage : call.stage = .aggregated report) :
    Made run.worlds call.user call.since report := by
  have justified := paired.justified caller call found
  unfold Justified at justified
  rw [stage] at justified
  exact justified.made

/-- A call returns what it has made, or what the cache held when it began. -/
theorem made_of_returned (paired : Paired used run)
    (held : ∀ world ∈ run.worlds, ∀ user since report,
      world.desk.books.Holds (CacheKey.key user since) report → Made run.worlds user since report)
    (found : run.world.calls[caller]? = some call) (stage : call.stage = .finished (.ok report)) :
    Made run.worlds call.user call.since report := by
  have justified := paired.justified caller call found
  unfold Justified at justified
  rw [stage] at justified
  rcases justified with ⟨-, world, member, -, now, books, hit⟩ | aggregated
  · exact held world member call.user call.since report (Books.holds_of_cachedReport hit)
  · exact aggregated.made

end Paired

namespace Sourced

variable {used used' : List Uuid} {run : ReportRun} {settings : ReportSettings} {limit : Int}
  {action : ReportAction}

theorem held_step (sourced : Sourced run) (paired : Paired used run) :
    ∀ world ∈ (run.step settings limit action).worlds, ∀ user since report,
      world.desk.books.Holds (CacheKey.key user since) report →
        Made (run.step settings limit action).worlds user since report := by
  intro world member user since report held
  rcases List.mem_cons.1 member with rfl | past
  · have fits : ∀ (caller : Nat) (call : ReportCall) (report : Report),
        run.world.calls[caller]? = some call → call.stage = .aggregated report → report.Fits := by
      intro caller call report found stage
      obtain ⟨_, _, _, -, -, sums⟩ := paired.made_of_aggregated found stage
      exact Report.fits_of_aggregate sums
    rcases ReportWorld.step_holds fits action held with old | ⟨caller, call, found, stage, sameKey⟩
    · exact (sourced.held run.world List.mem_cons_self user since report old).mono
    · obtain ⟨rfl, sameSecond⟩ := CacheKey.eq_of_key_eq sameKey
      exact ((paired.made_of_aggregated found stage).of_seconds sameSecond.symm).mono
  · exact (sourced.held world past user since report held).mono

theorem step (sourced : Sourced run) (paired : Paired used run)
    (paired' : Paired used' (run.step settings limit action)) :
    Sourced (run.step settings limit action) where
  held := sourced.held_step paired
  returned := by
    intro world member caller call report found stage
    rcases List.mem_cons.1 member with rfl | past
    · exact paired'.made_of_returned (sourced.held_step paired) found stage
    · exact (sourced.returned world past caller call report found stage).mono

theorem start {desk : Desk} (noReports : ∀ key report, ¬desk.books.Holds key report) :
    Sourced { world := { desk } } where
  held := by
    intro world member user since report held
    rw [List.mem_singleton.1 member] at held
    exact absurd held (noReports _ _)
  returned := by
    intro world member caller call report found
    rw [List.mem_singleton.1 member] at found
    cases found

theorem ofActions (settings : ReportSettings) (limit : Int) {desk : Desk}
    (noMessages : desk.books.store.messages = []) (noWaiters : desk.waiters = [])
    (noMail : desk.mail = []) (noReports : ∀ key report, ¬desk.books.Holds key report)
    {actions : List ReportAction} (distinct : (actions.filterMap ReportAction.newId?).Nodup) :
    Sourced (ReportRun.ofActions settings limit desk actions) := by
  induction actions using List.reverseRecOn with
  | nil => exact start noReports
  | append_singleton actions action ih =>
    have before : (actions.filterMap ReportAction.newId?).Nodup := by
      rw [List.filterMap_append] at distinct
      exact (List.nodup_append.1 distinct).1
    obtain ⟨used, paired⟩ :=
      Paired.ofActions settings limit noMessages noWaiters noMail before
    obtain ⟨used', paired'⟩ :=
      Paired.ofActions settings limit noMessages noWaiters noMail distinct
    unfold ReportRun.ofActions at paired' ⊢
    rw [List.foldl_append] at paired' ⊢
    exact (ih before).step paired paired'

end Sourced

end ExpenseLedger
