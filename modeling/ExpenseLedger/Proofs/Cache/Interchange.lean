import ExpenseLedger.Proofs.Cache.Memory
import ExpenseLedger.Proofs.Json.Codec

/-!
# Either cache is a plain map

Reports are kept and dropped and looked up while time passes, and both caches are told the same.
What either of them finds can be read off the list of what was done (`CacheMoment.answer`): the
report that was kept last for the user and the second, unless the user's reports have been dropped
since or its time is over. Nothing is ever removed from that list, so it does not matter when the
caches remove what has expired.

The caches do not go by one clock. The cache in memory goes by a monotonic clock, to the nanosecond,
and the cache in the tables by the wall clock, of which it is told whole milliseconds. Each is the
plain map of its own clock, whatever the other clock does. They are the same map if their clocks
keep in step, that is if what the caches are told of the clocks moves by the same times. If the
clocks themselves move by the same times, but by parts of a millisecond too, the tables give a
report up less than a millisecond before the memory does.
-/

namespace ExpenseLedger

/-- What the wall clock and the monotonic clock show, in nanoseconds. -/
structure Clocks where
  wall : Int
  monotonic : Int

namespace Clocks

/-- The whole milliseconds of the wall clock, which is all that the tables are told of it. -/
def millis (clocks : Clocks) : Int :=
  clocks.wall / 1000000

/-- The wall clock as the tables are told of it, in nanoseconds. -/
def shown (clocks : Clocks) : Int :=
  clocks.millis * 1000000

end Clocks

/-- What is done with a cache, or time that passes: each of the clocks moves on by some
nanoseconds. -/
inductive CacheAction where
  | get (user : Int) (since : Instant)
  | set (user : Int) (since : Instant) (report : Report) (ttl : Nat)
  | invalidate (user : Int)
  | pass (wall monotonic : Nat)

/-- What was done, and when. -/
structure CacheMoment where
  clocks : Clocks
  action : CacheAction

namespace CacheMoment

/-- The totals of a report fit 64 bits, and so does the time at which it expires. -/
def Fits (moment : CacheMoment) : Prop :=
  match moment.action with
  | .set _ _ report ttl =>
    report.Fits ∧ (ttl : Int) ≤ maxInt64 ∧ moment.clocks.millis + ttl ≤ maxInt64
  | _ => True

instance (report : Report) : Decidable report.Fits :=
  inferInstanceAs (Decidable (∀ entry ∈ report.entries, FitsInt64 entry.2))

instance : (moment : CacheMoment) → Decidable moment.Fits
  | ⟨_, .set _ _ _ _⟩ => inferInstanceAs (Decidable (_ ∧ _ ∧ _))
  | ⟨_, .get _ _⟩ | ⟨_, .invalidate _⟩ | ⟨_, .pass _ _⟩ => inferInstanceAs (Decidable True)

/-- The report that was kept last for a user and a second, with the time at which it was kept and
for how many milliseconds, if the user's reports have not been dropped since. The latest moment
comes first. -/
def latest? (user second : Int) : List CacheMoment → Option (Report × Clocks × Nat)
  | [] => none
  | ⟨clocks, .set other since report ttl⟩ :: earlier =>
    if other = user ∧ since.seconds = second then some (report, clocks, ttl)
    else latest? user second earlier
  | ⟨_, .invalidate other⟩ :: earlier =>
    if other = user then none else latest? user second earlier
  | _ :: earlier => latest? user second earlier

/-- What a plain map answers that goes by one reading of the clocks, in nanoseconds: the latest
report, as long as it has not expired. -/
def answer (reading : Clocks → Int) (moments : List CacheMoment) (now : Clocks)
    (user second : Int) : Option Report :=
  (latest? user second moments).bind fun (report, kept, ttl) =>
    if reading now < reading kept + ttl * 1000000 then some report else none

end CacheMoment

namespace CacheMoment

variable {reading : Clocks → Int} {moments : List CacheMoment} {later : Clocks} {user second : Int}
  {report : Report}

theorem answer_set (clocks : Clocks) (other : Int) (since : Instant) (report : Report) (ttl : Nat) :
    answer reading (⟨clocks, .set other since report ttl⟩ :: moments) later user second =
      if other = user ∧ since.seconds = second then
        if reading later < reading clocks + ttl * 1000000 then some report else none
      else answer reading moments later user second := by
  unfold answer
  rw [latest?]
  split <;> rfl

theorem answer_invalidate (clocks : Clocks) (other : Int) :
    answer reading (⟨clocks, .invalidate other⟩ :: moments) later user second =
      if other = user then none else answer reading moments later user second := by
  unfold answer
  rw [latest?]
  split <;> rfl

end CacheMoment

/-- Both caches, what the clocks show, and what was done, the latest first. -/
structure CacheWorld where
  clocks : Clocks
  memory : MemoryCache := {}
  store : Store
  moments : List CacheMoment := []

namespace CacheWorld

/-- The world after one more action. The cache in memory is told nanoseconds of the monotonic clock,
and the one in the tables milliseconds of the wall clock. -/
def step (world : CacheWorld) (action : CacheAction) : CacheWorld :=
  let world := { world with moments := ⟨world.clocks, action⟩ :: world.moments }
  match action with
  | .get user since =>
    { world with memory := (world.memory.get world.clocks.monotonic user since).2 }
  | .set user since report ttl =>
    { world with
      memory := world.memory.set world.clocks.monotonic (ttl * 1000000) user since report
      store := (world.store.cacheReport world.clocks.millis ttl user since report).toOption.getD
        world.store }
  | .invalidate user =>
    { world with
      memory := (world.memory.invalidate user).2
      store := ((world.store.dropCachedReports user).toOption.map Prod.snd).getD world.store }
  | .pass wall monotonic =>
    { world with clocks := ⟨world.clocks.wall + wall, world.clocks.monotonic + monotonic⟩ }

/-- The world after a list of actions that begins at a time with empty caches. -/
def ofActions (clocks : Clocks) (store : Store) (actions : List CacheAction) : CacheWorld :=
  actions.foldl step { clocks, store }

end CacheWorld

/-! ## The cache in the tables -/

namespace Store

variable {store : Store} {now later user other : Int} {since start : Instant} {report : Report}

/-- A report that is kept takes the place of one for the same user and second. -/
theorem cachedReport_cacheReport (all : store.outOfReach = [])
    (ascending : Rows.Ascending CachedReport.key store.cachedReports) (fits : report.Fits)
    {ttl : Nat} (short : (ttl : Int) ≤ maxInt64) (soon : now + ttl ≤ maxInt64)
    (order : now ≤ later) {after : Store}
    (done : store.cacheReport now ttl user since report = .ok after) :
    after.cachedReport later other start =
      if user = other ∧ since.seconds = start.seconds then
        .ok (if later < now + ttl then some report else none)
      else store.cachedReport later other start := by
  rw [cacheReport_eq all] at done
  have reached : after.outOfReach = [] := by rw [← Except.ok.inj done]; exact all
  have rows : after.cachedReports = Rows.put CachedReport.key
      (store.cacheRow now ttl user since report)
      (store.cachedReports.filter fun row => now < row.expiresAt) := by
    rw [← Except.ok.inj done]
  rw [cachedReport_eq_live reached, cachedReport_eq_live all, rows, Rows.get?_put]
  have expiry : (store.cacheRow now ttl user since report).expiresAt = now + ttl := by
    show min (now + min (ttl : Int) maxInt64) maxInt64 = now + ttl
    omega
  have key : (store.cacheRow now ttl user since report).key = CacheKey.key user since := rfl
  rw [key]
  by_cases same : CacheKey.key user since = CacheKey.key other start
  · rw [if_pos same, if_pos (CacheKey.key_eq_iff.1 same)]
    by_cases live : later < now + ttl
    · have body : Json.Reader.whole Report.fromJson
          (store.cacheRow now ttl user since report).body = .ok report :=
        Report.whole_toText fits
      rw [Option.filter_some_pos (by simpa [expiry] using live), if_pos live]
      simp only [body]
    · rw [Option.filter_some_neg (by simpa [expiry] using live), if_neg live]
  · -- A row that has expired by now has expired later on as well.
    rw [if_neg same, if_neg fun own => same (CacheKey.key_eq_iff.2 own), ascending.get?_filter]
    cases Rows.get? CachedReport.key store.cachedReports (CacheKey.key other start) with
    | none => rfl
    | some row =>
      by_cases live : now < row.expiresAt
      · rw [Option.filter_some_pos (by simpa using live)]
      · have expired : ¬later < row.expiresAt := fun less =>
          live (Int.lt_of_le_of_lt order less)
        rw [Option.filter_some_neg (by simpa using live),
          Option.filter_some_neg (by simpa using expired)]
        rfl

theorem exists_cacheReport (all : store.outOfReach = [])
    (ascending : Rows.Ascending CachedReport.key store.cachedReports) (now : Int) (ttl : Nat)
    (user : Int) (since : Instant) (report : Report) :
    ∃ after, store.cacheReport now ttl user since report = .ok after ∧ after.outOfReach = [] ∧
      Rows.Ascending CachedReport.key after.cachedReports :=
  ⟨_, cacheReport_eq all ttl, all, ascending_put (List.Pairwise.filter _ ascending) _⟩

theorem dropCachedReports_eq (all : store.outOfReach = []) (user : Int) :
    ∃ count, store.dropCachedReports user = .ok (count,
      { store with
        cachedReports := store.cachedReports.filter fun row =>
          !CacheKey.inRangeOf user row.key }) := by
  unfold dropCachedReports
  rw [reach_of_outOfReach all]
  exact ⟨_, rfl⟩

theorem cachedReport_dropCachedReports (all : store.outOfReach = [])
    (ascending : Rows.Ascending CachedReport.key store.cachedReports) {after : Store} {count : Nat}
    (done : store.dropCachedReports user = .ok (count, after)) :
    after.cachedReport later other start =
      if user = other then .ok none else store.cachedReport later other start := by
  obtain ⟨count', dropped⟩ := dropCachedReports_eq all user
  rw [dropped] at done
  obtain ⟨-, same⟩ := Prod.mk.inj (Except.ok.inj done)
  have reached : after.outOfReach = [] := by rw [← same]; exact all
  have rows : after.cachedReports = store.cachedReports.filter
      fun row => !CacheKey.inRangeOf user row.key := by rw [← same]
  rw [cachedReport_eq_live reached, cachedReport_eq_live all, rows, ascending.get?_filter]
  cases found : Rows.get? CachedReport.key store.cachedReports (CacheKey.key other start) with
  | none => simp
  | some row =>
    obtain ⟨-, key⟩ := Rows.get?_eq_some found
    by_cases own : user = other
    · subst own
      rw [Option.filter_some_neg (by simp [key, CacheKey.inRangeOf_key]), if_pos rfl]
      rfl
    · have outside : CacheKey.inRangeOf user row.key = false := by
        rw [key]
        exact Bool.eq_false_iff.2 fun within => own (CacheKey.inRangeOf_key_iff.1 within).symm
      rw [Option.filter_some_pos (by simp [outside]), if_neg own]

end Store

/-! ## Both caches along a run -/

namespace CacheWorld

/-- The plain map of its clock answers what either cache finds, now and, if nothing more is done,
later on. -/
structure Kept (world : CacheWorld) : Prop where
  reached : world.store.outOfReach = []
  ascending : Rows.Ascending CachedReport.key world.store.cachedReports
  ordered : world.memory.Ascending
  memory : ∀ later : Clocks, world.clocks.monotonic ≤ later.monotonic → ∀ user since,
    (world.memory.get later.monotonic user since).1 =
      CacheMoment.answer Clocks.monotonic world.moments later user since.seconds
  shared : ∀ later : Clocks, world.clocks.millis ≤ later.millis → ∀ user since,
    world.store.cachedReport later.millis user since =
      .ok (CacheMoment.answer Clocks.shown world.moments later user since.seconds)

variable {world : CacheWorld}

theorem kept_get (kept : world.Kept) (user : Int) (since : Instant) :
    (world.step (.get user since)).Kept where
  reached := kept.reached
  ascending := kept.ascending
  ordered := kept.ordered.get _ user since
  memory := by
    intro later order other start
    exact (MemoryCache.get_get world.memory order user other since start).trans
      (kept.memory later order other start)
  shared := kept.shared

theorem kept_set (kept : world.Kept) {user : Int} {since : Instant} {report : Report} {ttl : Nat}
    (fits : CacheMoment.Fits ⟨world.clocks, .set user since report ttl⟩) :
    (world.step (.set user since report ttl)).Kept := by
  obtain ⟨totals, short, soon⟩ := fits
  obtain ⟨after, done, reached, ascending⟩ :=
    Store.exists_cacheReport kept.reached kept.ascending world.clocks.millis ttl user since report
  have stored : (world.store.cacheReport world.clocks.millis ttl user since report).toOption.getD
      world.store = after := by rw [done]; rfl
  simp only [step, stored]
  refine ⟨reached, ascending, kept.ordered.set _ _ user since report, ?_, ?_⟩
  · intro later order other start
    rw [MemoryCache.get_set, CacheMoment.answer_set, kept.memory later order other start]
    push_cast
    rfl
  · intro later order other start
    rw [Store.cachedReport_cacheReport kept.reached kept.ascending totals short soon order done,
      CacheMoment.answer_set, kept.shared later order other start]
    have whole : later.millis < world.clocks.millis + ttl ↔
        later.shown < world.clocks.shown + ttl * 1000000 := by
      unfold Clocks.shown
      omega
    simp only [whole]
    split <;> rfl

theorem kept_invalidate (kept : world.Kept) (user : Int) :
    (world.step (.invalidate user)).Kept := by
  obtain ⟨count, done⟩ := Store.dropCachedReports_eq kept.reached user
  simp only [step, done]
  refine ⟨kept.reached, List.Pairwise.filter _ kept.ascending, kept.ordered.invalidate user, ?_, ?_⟩
  · intro later order other start
    rw [MemoryCache.get_invalidate kept.ordered, CacheMoment.answer_invalidate,
      kept.memory later order other start]
  · intro later order other start
    refine (Store.cachedReport_dropCachedReports kept.reached kept.ascending done).trans ?_
    rw [CacheMoment.answer_invalidate, kept.shared later order other start]
    split <;> rfl

theorem kept_pass (kept : world.Kept) (wall monotonic : Nat) :
    (world.step (.pass wall monotonic)).Kept where
  reached := kept.reached
  ascending := kept.ascending
  ordered := kept.ordered
  memory := by
    intro later order
    have order : world.clocks.monotonic + monotonic ≤ later.monotonic := order
    exact kept.memory later (by omega)
  shared := by
    intro later order
    have order : (world.clocks.wall + wall) / 1000000 ≤ later.millis := order
    have onwards : world.clocks.millis ≤ (world.clocks.wall + wall) / 1000000 :=
      Int.ediv_le_ediv (by decide) (by omega)
    exact kept.shared later (Int.le_trans onwards order)

theorem kept_step (kept : world.Kept) {action : CacheAction}
    (fits : CacheMoment.Fits ⟨world.clocks, action⟩) : (world.step action).Kept := by
  cases action with
  | get user since => exact kept_get kept user since
  | set user since report ttl => exact kept_set kept fits
  | invalidate user => exact kept_invalidate kept user
  | pass wall monotonic => exact kept_pass kept wall monotonic

theorem moments_step (world : CacheWorld) (action : CacheAction) :
    (world.step action).moments = ⟨world.clocks, action⟩ :: world.moments := by
  cases action <;> rfl

/-- Since each of the moments, what the caches are told of the clocks has moved by the same time. -/
def InStep (world : CacheWorld) : Prop :=
  ∀ moment ∈ world.moments, world.clocks.shown - moment.clocks.shown =
    world.clocks.monotonic - moment.clocks.monotonic

/-- Time passes by whole milliseconds, and by as many for both clocks. -/
def ByWholeMillis : CacheAction → Prop
  | .pass wall monotonic => wall = monotonic ∧ 1000000 ∣ wall
  | _ => True

theorem InStep.step (inStep : world.InStep) {action : CacheAction} (whole : ByWholeMillis action) :
    (world.step action).InStep := by
  intro moment member
  rw [moments_step] at member
  have before : world.clocks.shown - moment.clocks.shown =
      world.clocks.monotonic - moment.clocks.monotonic := by
    rcases List.mem_cons.1 member with rfl | earlier
    · exact (Int.sub_self _).trans (Int.sub_self _).symm
    · exact inStep moment earlier
  cases action with
  | get user since => exact before
  | set user since report ttl => exact before
  | invalidate user => exact before
  | pass wall monotonic =>
    obtain ⟨rfl, count, rfl⟩ := whole
    simp only [CacheWorld.step, Clocks.shown, Clocks.millis] at before ⊢
    omega

namespace Kept

variable {user : Int} {since : Instant}

end Kept

end CacheWorld

/-- A report is kept for a millisecond from 0.9 ms on. At 1.5 ms the tables have given it up. -/
example :
    let world := CacheWorld.ofActions ⟨900000, 900000⟩ {}
      [.set 1 .epoch (Report.ofList [("food", 500)]) 1, .pass 600000 600000]
    ((world.memory.get world.clocks.monotonic 1 .epoch).1.map Report.entries,
      (world.store.cachedReport world.clocks.millis 1 .epoch).toOption) =
        (some [("food", 500)], some none) := by
  decide +kernel

end ExpenseLedger
