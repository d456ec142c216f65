import ExpenseLedger.Proofs.Cache.Entries

/-!
# What the report cache holds

`Books.Holds` says that a report is cached under a key, in memory or as text in the tables, whether
or not it is still of use. What is found in the cache is held by it, and the only way into the cache
is to be kept there: looking reports up, dropping them and whatever else the ledger does to the
books leave no report behind that was not there before.
-/

namespace ExpenseLedger
namespace Books

/-- The cache has an entry of a key with a report. -/
def Holds (books : Books) (key : String) (report : Report) : Prop :=
  match books.cache with
  | .memory cache => ∃ entry ∈ cache.entries, entry.key = key ∧ entry.report = report
  | .shared => ∃ row ∈ books.store.cachedReports, row.key = key ∧
      Json.Reader.whole Report.fromJson row.body = .ok report
  | .broken _ => False

/-- The second books hold no report that the first do not hold. -/
def AddsNoReport (books after : Books) : Prop :=
  ∀ key report, after.Holds key report → books.Holds key report

section Changes

variable {books after : Books} {now user : Int} {since : Instant} {report : Report}

theorem holds_iff {key : String} :
    books.Holds key report ↔ ∃ entry ∈ books.entries, entry.key = key ∧
      entry.report? = some report := by
  unfold Holds entries
  cases books.cache with
  | memory cache => simp [CacheEntry.kept]
  | shared =>
    have body (row : CachedReport) : Json.Reader.whole Report.fromJson row.body = .ok report ↔
        row.kept.report? = some report := by
      unfold CachedReport.kept
      cases Json.Reader.whole Report.fromJson row.body <;> simp [Except.toOption]
    simp [body]
    rfl
  | broken fault => simp

/-- What adds no entry adds no report. -/
theorem AddsNoEntry.addsNoReport (h : AddsNoEntry books after) : AddsNoReport books after := by
  intro key report held
  obtain ⟨entry, member, rest⟩ := holds_iff.1 held
  exact holds_iff.2 ⟨entry, h member, rest⟩

/-- What is found in the cache is held by it. -/
theorem holds_of_cachedReport
    (found : books.cachedReport now user since = .ok (some report, after)) :
    books.Holds (CacheKey.key user since) report := by
  obtain ⟨entry, member, key, -, reads⟩ := exists_entry_of_cachedReport found
  exact holds_iff.2 ⟨entry, member, key, reads⟩

/-- Of a report that is kept, the cache holds what was kept and nothing else that is new. As text it
is read back, because its totals fit 64 bits. -/
theorem holds_of_cacheReport {ttl : Nat} (fits : report.Fits)
    (kept : books.cacheReport now ttl user since report = .ok after) {key : String}
    {other : Report} (held : after.Holds key other) :
    books.Holds key other ∨ (key = CacheKey.key user since ∧ other = report) := by
  obtain ⟨entry, member, rfl, reads⟩ := holds_iff.1 held
  rcases mem_of_cacheReport kept member with old | ⟨key, own⟩
  · exact Or.inl (holds_iff.2 ⟨entry, old, rfl, reads⟩)
  · rw [own fits] at reads
    exact Or.inr ⟨key, (Option.some.inj reads).symm⟩

end Changes
end Books

end ExpenseLedger
