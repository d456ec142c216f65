import ExpenseLedger.Cache.Key
import ExpenseLedger.Json.Codec
import ExpenseLedger.Store.Tables

/-!
# Reports cached in the tables

Processes that share their tables share finished reports, kept as JSON text. Storing a report
first drops all that have expired, whoever they belong to.
-/

namespace ExpenseLedger
namespace Store

def cachedReport (store : Store) (now user : Int) (since : Instant) :
    Outcome (Option Report) := do
  store.reach .readCache [.cachedReports]
  match Rows.get? CachedReport.key store.cachedReports (CacheKey.key user since) with
  | none => .ok none
  | some row =>
    if now < row.expiresAt then
      match Json.Reader.whole Report.fromJson row.body with
      | .ok report => .ok (some report)
      | .error _ => .error (.internal .unreadableCache)
    else
      .ok none

/-- Keeps a report in the shared cache for `ttl` milliseconds. A row that is replaced keeps the
window start that it was made with. -/
def cacheReport (store : Store) (now : Int) (ttl : Nat) (user : Int) (since : Instant)
    (report : Report) : Outcome Store := do
  store.reach .writeCache [.cachedReports]
  let live := store.cachedReports.filter fun row => now < row.expiresAt
  let key := CacheKey.key user since
  let windowStart := ((Rows.get? CachedReport.key live key).map CachedReport.windowStart).getD
    since.seconds
  let expiresAt := min (now + min (ttl : Int) maxInt64) maxInt64
  let row : CachedReport := { key, windowStart, body := report.toJson.toText, expiresAt }
  .ok { store with cachedReports := Rows.put CachedReport.key row live }

/-- Drops the reports of a user from the shared cache; tells how many there were. -/
def dropCachedReports (store : Store) (user : Int) : Outcome (Nat × Store) := do
  store.reach .clearCache [.cachedReports]
  let owned := store.cachedReports.filter fun row => CacheKey.inRangeOf user row.key
  let others := store.cachedReports.filter fun row => !CacheKey.inRangeOf user row.key
  .ok (owned.length, { store with cachedReports := others })

end Store
end ExpenseLedger
