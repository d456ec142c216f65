import ExpenseLedger.Cache.Key
import ExpenseLedger.Report.Basic

/-!
# Reports cached in memory

A process of its own keeps finished reports in a map ordered by key. An entry is of use before
its expiry; one that has expired goes when it is next looked up. The clock is the caller's, and so
are its units. All entries of a user stand
side by side, which is how they are found when the user's reports become stale.
-/

namespace ExpenseLedger

/-- A cached report; it is of use before `expiresAt`, by the clock that the cache is told. -/
structure CacheEntry where
  key : String
  report : Report
  expiresAt : Int
  deriving DecidableEq, Inhabited

/-- The cached reports of a process, by key. -/
structure MemoryCache where
  entries : List CacheEntry := []
  deriving DecidableEq, Inhabited

namespace MemoryCache

/-- Looks up a report. An entry that has expired is dropped. -/
def get (cache : MemoryCache) (now user : Int) (since : Instant) :
    Option Report × MemoryCache :=
  let key := CacheKey.key user since
  match Rows.get? CacheEntry.key cache.entries key with
  | none => (none, cache)
  | some entry =>
    if now < entry.expiresAt then
      (some entry.report, cache)
    else
      (none, { entries := cache.entries.filter fun entry => entry.key ≠ key })

/-- Keeps a report for the time `ttl`, in the units of the clock. -/
def set (cache : MemoryCache) (now : Int) (ttl : Nat) (user : Int) (since : Instant)
    (report : Report) : MemoryCache :=
  let entry : CacheEntry := { key := CacheKey.key user since, report, expiresAt := now + ttl }
  { entries := Rows.put CacheEntry.key entry cache.entries }

/-- Drops the reports of a user, which begin at the first key that is not below the user's
prefix; tells how many there were. -/
def invalidate (cache : MemoryCache) (user : Int) : Nat × MemoryCache :=
  let below := cache.entries.takeWhile fun entry => decide (entry.key < CacheKey.userPrefix user)
  let rest := cache.entries.drop below.length
  let owned := rest.takeWhile fun entry => CacheKey.startsWithUser user entry.key
  (owned.length, { entries := below ++ rest.drop owned.length })

end MemoryCache
end ExpenseLedger
