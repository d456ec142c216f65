import ExpenseLedger.Cache.Memory
import ExpenseLedger.Cache.Shared

/-!
# The books

The tables together with the cache of finished reports that goes with them. The cache is kept in
memory, in the tables themselves, or out of order.
-/

namespace ExpenseLedger

/-- Where finished reports are kept. -/
inductive ReportCache where
  | memory (cache : MemoryCache)
  | shared
  | broken (fault : TransportFault)
  deriving DecidableEq

/-- The tables and the report cache. -/
structure Books where
  store : Store
  cache : ReportCache
  deriving DecidableEq

namespace Books

def withStore (books : Books) (change : Store → Outcome Store) : Outcome Books := do
  let store ← change books.store
  .ok { books with store }

def cachedReport (books : Books) (now user : Int) (since : Instant) :
    Outcome (Option Report × Books) :=
  match books.cache with
  | .memory cache =>
    let (report, cache) := cache.get now user since
    .ok (report, { books with cache := .memory cache })
  | .shared => do
    let report ← books.store.cachedReport now user since
    .ok (report, books)
  | .broken fault => .error (.transportUnavailable fault)

/-- Keeps a finished report for `ttl` milliseconds. -/
def cacheReport (books : Books) (now : Int) (ttl : Nat) (user : Int) (since : Instant)
    (report : Report) : Outcome Books :=
  match books.cache with
  | .memory cache =>
    .ok { books with cache := .memory (cache.set now ttl user since report) }
  | .shared => books.withStore fun store => store.cacheReport now ttl user since report
  | .broken fault => .error (.transportUnavailable fault)

/-- Drops all finished reports of a user; tells how many there were. -/
def dropReports (books : Books) (user : Int) : Outcome (Nat × Books) :=
  match books.cache with
  | .memory cache =>
    let (count, cache) := cache.invalidate user
    .ok (count, { books with cache := .memory cache })
  | .shared => do
    let (count, store) ← books.store.dropCachedReports user
    .ok (count, { books with store })
  | .broken fault => .error (.transportUnavailable fault)

/-- Drops all finished reports of a user as well as the cache lets it; what was written before
stands either way. -/
def invalidate (books : Books) (user : Int) : Books :=
  match books.dropReports user with
  | .ok (_, books) => books
  | .error _ => books

end Books
end ExpenseLedger
