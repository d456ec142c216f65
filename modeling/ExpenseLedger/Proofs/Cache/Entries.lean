import ExpenseLedger.Proofs.Cache.Memory
import ExpenseLedger.Proofs.Json.Codec
import ExpenseLedger.Proofs.Ledger.Run

/-!
# The entries of the report cache

`Books.entries` lists what is cached, in memory or in the tables, whether or not it is still of use.
Looking a report up drops nothing that is still of use, keeping one adds an entry of its key, and
dropping the reports of a user takes exactly the user's entries away. Nothing else that the ledger
does to the books adds an entry.
-/

namespace ExpenseLedger

/-- An entry of a report cache: until when it is of use, in milliseconds, and what it says, if it can
be read. -/
structure KeptReport where
  key : String
  expiresAt : Int
  report? : Option Report

/-- The entry is one of a user. -/
def KeptReport.IsOf (user : Int) (entry : KeptReport) : Prop :=
  ∃ since, entry.key = CacheKey.key user since

def CacheEntry.kept (entry : CacheEntry) : KeptReport :=
  { key := entry.key, expiresAt := entry.expiresAt, report? := some entry.report }

def CachedReport.kept (row : CachedReport) : KeptReport :=
  { key := row.key, expiresAt := row.expiresAt
    report? := (Json.Reader.whole Report.fromJson row.body).toOption }

namespace MemoryCache

variable {cache : MemoryCache} {entry : CacheEntry} {now user : Int} {since : Instant}

theorem mem_of_mem_get (member : entry ∈ (cache.get now user since).2.entries) :
    entry ∈ cache.entries := by
  simp only [get] at member
  split at member
  · exact member
  · split at member
    · exact member
    · exact (List.mem_filter.1 member).1

/-- An entry that is still of use is not dropped. -/
theorem mem_get_of_live (ascending : cache.Ascending) (member : entry ∈ cache.entries)
    (live : now < entry.expiresAt) : entry ∈ (cache.get now user since).2.entries := by
  simp only [get]
  split
  · exact member
  · next found inCache =>
    split
    · exact member
    · next expired =>
      refine List.mem_filter.2 ⟨member, decide_eq_true fun same => expired ?_⟩
      obtain ⟨inEntries, key⟩ := Rows.get?_eq_some inCache
      rw [ascending.eq_of_key_eq inEntries member (key.trans same.symm)]
      exact live

theorem mem_of_mem_invalidate (member : entry ∈ (cache.invalidate user).2.entries) :
    entry ∈ cache.entries := by
  simp only [invalidate] at member
  rcases List.mem_append.1 member with below | beyond
  · exact (List.takeWhile_prefix _).subset below
  · exact List.mem_of_mem_drop (List.mem_of_mem_drop beyond)

/-- A report that is found is in an entry of its key that is still of use. -/
theorem exists_entry_of_get {report : Report}
    (found : (cache.get now user since).1 = some report) :
    ∃ entry ∈ cache.entries, entry.key = CacheKey.key user since ∧ now < entry.expiresAt ∧
      entry.report = report := by
  simp only [get] at found
  split at found
  · cases found
  · next entry inCache =>
    obtain ⟨member, key⟩ := Rows.get?_eq_some inCache
    split at found
    · next live =>
      cases found
      exact ⟨entry, member, key, live, rfl⟩
    · cases found

end MemoryCache

namespace Store

variable {store after : Store} {user : Int} {row : CachedReport}

/-- Keeping a report puts one row in place, and adds no other. -/
theorem mem_of_mem_cacheReport {now : Int} {ttl : Nat} {since : Instant} {report : Report}
    (kept : store.cacheReport now ttl user since report = .ok after)
    (member : row ∈ after.cachedReports) :
    row ∈ store.cachedReports ∨
      (row.key = CacheKey.key user since ∧ row.body = report.toJson.toText) := by
  obtain ⟨-, -, kept⟩ := Outcome.bind_eq_ok.1 kept
  cases kept
  rcases Rows.mem_put member with rfl | old
  · exact Or.inr ⟨rfl, rfl⟩
  · exact Or.inl (List.mem_filter.1 old).1

theorem mem_of_mem_dropCachedReports {count : Nat}
    (dropped : store.dropCachedReports user = .ok (count, after))
    (member : row ∈ after.cachedReports) : row ∈ store.cachedReports := by
  obtain ⟨-, -, dropped⟩ := Outcome.bind_eq_ok.1 dropped
  cases dropped
  exact (List.mem_filter.1 member).1

end Store

namespace Books

/-- All that is cached. -/
def entries (books : Books) : List KeptReport :=
  match books.cache with
  | .memory cache => cache.entries.map CacheEntry.kept
  | .shared => books.store.cachedReports.map CachedReport.kept
  | .broken _ => []

/-- A cache in memory is in the order of its keys. -/
def CacheOrdered (books : Books) : Prop :=
  ∀ cache, books.cache = .memory cache → cache.Ascending

/-- The second books have no entry that the first do not have. -/
def AddsNoEntry (books after : Books) : Prop :=
  after.entries ⊆ books.entries

/-- The caches have the same entries that are still of use at an instant. -/
def SameLive (now : Int) (books after : Books) : Prop :=
  ∀ entry, now < entry.expiresAt → (entry ∈ after.entries ↔ entry ∈ books.entries)

section Changes

variable {books middle after : Books} {now user : Int} {since : Instant} {report : Report}
  {entry : KeptReport}

theorem AddsNoEntry.trans (first : AddsNoEntry books middle) (second : AddsNoEntry middle after) :
    AddsNoEntry books after :=
  List.Subset.trans second first

/-- A change of other tables. -/
theorem entries_of_same (cache : after.cache = books.cache)
    (same : after.store.cachedReports = books.store.cachedReports) :
    after.entries = books.entries := by
  unfold entries
  rw [cache, same]

theorem addsNoEntry_of_same (cache : after.cache = books.cache)
    (same : after.store.cachedReports = books.store.cachedReports) : AddsNoEntry books after := by
  unfold AddsNoEntry
  rw [entries_of_same cache same]
  exact List.Subset.refl _

/-! ## Looking up -/

theorem cachedReport_addsNoEntry {result : Option Report}
    (found : books.cachedReport now user since = .ok (result, after)) : AddsNoEntry books after := by
  unfold cachedReport at found
  cases kind : books.cache with
  | memory cache =>
    simp only [kind] at found
    cases found
    unfold AddsNoEntry entries
    rw [kind]
    exact List.map_subset _ fun _ => MemoryCache.mem_of_mem_get
  | shared =>
    simp only [kind] at found
    obtain ⟨report', -, found⟩ := Outcome.bind_eq_ok.1 found
    cases found
    exact addsNoEntry_of_same rfl rfl
  | broken fault =>
    simp only [kind] at found
    cases found

/-- Looking a report up drops at most what has expired. -/
theorem cachedReport_sameLive (ordered : books.CacheOrdered) {result : Option Report}
    (found : books.cachedReport now user since = .ok (result, after)) :
    SameLive now books after := by
  intro entry live
  refine ⟨fun member => cachedReport_addsNoEntry found member, fun member => ?_⟩
  unfold cachedReport at found
  unfold entries at member
  cases kind : books.cache with
  | memory cache =>
    simp only [kind] at found member
    cases found
    obtain ⟨inner, inCache, rfl⟩ := List.mem_map.1 member
    exact List.mem_map_of_mem (MemoryCache.mem_get_of_live (ordered cache kind) inCache live)
  | shared =>
    simp only [kind] at found member
    obtain ⟨report', -, found⟩ := Outcome.bind_eq_ok.1 found
    cases found
    unfold entries
    rw [kind]
    exact member
  | broken fault =>
    simp only [kind] at found
    cases found

/-- A report that is found is in an entry of its key that is still of use. -/
theorem exists_entry_of_cachedReport
    (found : books.cachedReport now user since = .ok (some report, after)) :
    ∃ entry ∈ books.entries, entry.key = CacheKey.key user since ∧ now < entry.expiresAt ∧
      entry.report? = some report := by
  unfold cachedReport at found
  unfold entries
  cases kind : books.cache with
  | memory cache =>
    simp only [kind] at found ⊢
    have result := (Prod.mk.inj (Except.ok.inj found)).1
    obtain ⟨entry, member, key, live, same⟩ := MemoryCache.exists_entry_of_get result
    exact ⟨entry.kept, List.mem_map_of_mem member, key, live, congrArg some same⟩
  | shared =>
    simp only [kind] at found ⊢
    obtain ⟨report', read, found⟩ := Outcome.bind_eq_ok.1 found
    cases found
    obtain ⟨row, member, key, live, body⟩ := Store.cachedReport_eq_ok_some read
    exact ⟨row.kept, List.mem_map_of_mem member, key, live, congrArg Except.toOption body⟩
  | broken fault =>
    simp only [kind] at found
    cases found

/-! ## Keeping and dropping -/

/-- Of a report that is kept, the cache has an entry, and no other that is new. As text it is read
back, if its totals fit 64 bits. -/
theorem mem_of_cacheReport {ttl : Nat}
    (kept : books.cacheReport now ttl user since report = .ok after)
    (member : entry ∈ after.entries) :
    entry ∈ books.entries ∨ (entry.key = CacheKey.key user since ∧
      (report.Fits → entry.report? = some report)) := by
  unfold cacheReport at kept
  unfold entries at member ⊢
  cases kind : books.cache with
  | memory cache =>
    simp only [kind] at kept ⊢
    cases kept
    obtain ⟨inner, inCache, rfl⟩ := List.mem_map.1 member
    rcases Rows.mem_put inCache with rfl | old
    · exact Or.inr ⟨rfl, fun _ => rfl⟩
    · exact Or.inl (List.mem_map_of_mem old)
  | shared =>
    simp only [kind] at kept ⊢
    obtain ⟨store, stored, rfl⟩ := withStore_eq_ok.1 kept
    simp only [kind] at member
    obtain ⟨row, inTable, rfl⟩ := List.mem_map.1 member
    rcases Store.mem_of_mem_cacheReport stored inTable with old | ⟨key, text⟩
    · exact Or.inl (List.mem_map_of_mem old)
    · refine Or.inr ⟨key, fun fits => ?_⟩
      unfold CachedReport.kept
      rw [text, Report.whole_toText fits]
      rfl
  | broken fault =>
    simp only [kind] at kept
    cases kept

theorem dropReports_addsNoEntry {count : Nat}
    (dropped : books.dropReports user = .ok (count, after)) : AddsNoEntry books after := by
  unfold dropReports at dropped
  unfold AddsNoEntry entries
  cases kind : books.cache with
  | memory cache =>
    simp only [kind] at dropped ⊢
    cases dropped
    exact List.map_subset _ fun _ => MemoryCache.mem_of_mem_invalidate
  | shared =>
    simp only [kind] at dropped ⊢
    obtain ⟨⟨count', store⟩, done, dropped⟩ := Outcome.bind_eq_ok.1 dropped
    cases dropped
    exact List.map_subset _ fun _ => Store.mem_of_mem_dropCachedReports done
  | broken fault =>
    simp only [kind] at dropped
    cases dropped

theorem invalidate_addsNoEntry (books : Books) (user : Int) :
    AddsNoEntry books (books.invalidate user) := by
  unfold invalidate
  split
  · next dropped => exact dropReports_addsNoEntry dropped
  · exact addsNoEntry_of_same rfl rfl

/-- When all tables can be reached, dropping takes away what lies in the range of the user. -/
theorem entries_invalidate (reached : books.store.outOfReach = []) (ordered : books.CacheOrdered)
    (user : Int) :
    (books.invalidate user).entries =
      books.entries.filter fun entry => !CacheKey.inRangeOf user entry.key := by
  cases kind : books.cache with
  | memory cache =>
    unfold invalidate dropReports entries
    simp only [kind]
    rw [MemoryCache.entries_invalidate (ordered cache kind), List.filter_map]
    rfl
  | shared =>
    rw [invalidate_eq kind reached]
    unfold entries
    simp only [kind]
    rw [List.filter_map]
    rfl
  | broken fault =>
    unfold invalidate dropReports entries
    simp only [kind, List.filter_nil]

/-! ## The order of a cache in memory -/

theorem CacheOrdered.of_same (ordered : books.CacheOrdered) (cache : after.cache = books.cache) :
    after.CacheOrdered := by
  intro memory kind
  rw [cache] at kind
  exact ordered memory kind

theorem CacheOrdered.cachedReport (ordered : books.CacheOrdered) {result : Option Report}
    (found : books.cachedReport now user since = .ok (result, after)) : after.CacheOrdered := by
  unfold Books.cachedReport at found
  cases kind : books.cache with
  | memory cache =>
    simp only [kind] at found
    cases found
    rintro _ ⟨⟩
    exact (ordered cache kind).get now user since
  | shared =>
    simp only [kind] at found
    obtain ⟨report', -, found⟩ := Outcome.bind_eq_ok.1 found
    cases found
    exact ordered
  | broken fault =>
    simp only [kind] at found
    cases found

theorem CacheOrdered.cacheReport (ordered : books.CacheOrdered) {ttl : Nat}
    (kept : books.cacheReport now ttl user since report = .ok after) : after.CacheOrdered := by
  unfold Books.cacheReport at kept
  cases kind : books.cache with
  | memory cache =>
    simp only [kind] at kept
    cases kept
    rintro _ ⟨⟩
    exact (ordered cache kind).set now ttl user since report
  | shared =>
    simp only [kind] at kept
    obtain ⟨store, -, rfl⟩ := withStore_eq_ok.1 kept
    exact ordered.of_same rfl
  | broken fault =>
    simp only [kind] at kept
    cases kept

theorem CacheOrdered.invalidate (ordered : books.CacheOrdered) (user : Int) :
    (books.invalidate user).CacheOrdered := by
  unfold Books.invalidate
  split
  · next count after dropped =>
    unfold dropReports at dropped
    cases kind : books.cache with
    | memory cache =>
      simp only [kind] at dropped
      cases dropped
      rintro _ ⟨⟩
      exact (ordered cache kind).invalidate user
    | shared =>
      simp only [kind] at dropped
      obtain ⟨⟨count', store⟩, -, dropped⟩ := Outcome.bind_eq_ok.1 dropped
      cases dropped
      exact ordered.of_same kind.symm
    | broken fault =>
      simp only [kind] at dropped
      cases dropped
  · exact ordered

/-! ## Changes that only take away -/

/-- No entry is added, and a cache that was in order stays so. -/
structure Prunes (books after : Books) : Prop where
  addsNoEntry : AddsNoEntry books after
  ordered : books.CacheOrdered → after.CacheOrdered

theorem Prunes.trans (first : Prunes books middle) (second : Prunes middle after) :
    Prunes books after :=
  ⟨first.addsNoEntry.trans second.addsNoEntry, fun ordered => second.ordered (first.ordered ordered)⟩

theorem Prunes.of_same (cache : after.cache = books.cache)
    (same : after.store.cachedReports = books.store.cachedReports) : Prunes books after :=
  ⟨addsNoEntry_of_same cache same, fun ordered => ordered.of_same cache⟩

theorem prunes_invalidate (books : Books) (user : Int) : Prunes books (books.invalidate user) :=
  ⟨books.invalidate_addsNoEntry user, fun ordered => ordered.invalidate user⟩

end Changes
end Books

/-! ## The ledger caches nothing -/

theorem LedgerOp.Effect.prunes {limit : Int} {books after : Books} {events : List LedgerEvent}
    (effect : LedgerOp.Effect limit books events after) : books.Prunes after := by
  cases effect with
  | erased user =>
    have erased : books.Prunes { books with store := books.store.withoutUser user } :=
      .of_same rfl rfl
    exact erased.trans (Books.prunes_invalidate _ user)
  | currencyChanged row currency found =>
    have changed : books.Prunes { books with store := books.store.putUser { row with currency } } :=
      .of_same rfl rfl
    exact changed.trans (Books.prunes_invalidate _ row.id)
  | _ => exact .of_same rfl rfl

theorem Writing.Effect.prunes {request : ExpenseRequest} {now : Instant} {books after : Books}
    {stage next : Writing} (effect : Writing.Effect request now books stage next after) :
    books.Prunes after := by
  cases effect with
  | recorded category base store booked =>
    obtain ⟨row, -, -, ⟨-, rfl⟩ | ⟨-, -, rfl⟩⟩ := Store.insertExpense_eq_ok booked
    · exact .of_same rfl rfl
    · exact .of_same rfl rfl
  | dropped => exact Books.prunes_invalidate books request.user
  | _ => exact .of_same rfl rfl

theorem LedgerRun.step_prunes (limit : Int) (run : LedgerRun) (action : LedgerAction) :
    run.books.Prunes (run.step limit action).books := by
  cases action with
  | perform op =>
    cases performed : op.perform limit run.books with
    | ok result =>
      simp only [step, performed]
      exact (LedgerOp.perform_effect performed).prunes
    | error e =>
      simp only [step, performed]
      exact .of_same rfl rfl
  | begin request now => exact .of_same rfl rfl
  | proceed caller =>
    cases found : run.calls[caller]? with
    | none =>
      simp only [step, found]
      exact .of_same rfl rfl
    | some call =>
      simp only [step, found]
      exact (Writing.step_effect call.request call.now run.books call.stage).prunes
  | outage tables => exact .of_same rfl rfl

end ExpenseLedger
