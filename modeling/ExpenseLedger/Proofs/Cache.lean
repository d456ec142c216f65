import ExpenseLedger.Proofs.Books
import ExpenseLedger.Proofs.Numeric.IntegerText
import Mathlib.Data.List.Basic

/-!
# The shared report cache

Different windows have different keys, and all keys of a user lie in the range that is dropped when
the user's reports become stale.
-/

namespace ExpenseLedger
namespace CacheKey

variable {user other : Int} {since start : Instant}

theorem toList_key (user : Int) (since : Instant) :
    (key user since).toList = integerDigits user ++ ':' :: integerDigits since.seconds := by
  simp [key, userPrefix, integerText]

theorem colon_notMem_integerDigits (n : Int) : ':' ∉ integerDigits n := by
  intro member
  rcases isDigit_or_minus_of_mem_integerDigits member with digit | minus
  · cases digit
  · cases minus

/-- A key belongs to one user and one start in whole seconds. -/
theorem eq_of_key_eq (h : key user since = key other start) :
    user = other ∧ since.seconds = start.seconds := by
  have same := congrArg String.toList h
  rw [toList_key, toList_key,
    List.append_cons_inj_of_notMem (colon_notMem_integerDigits user)
      (colon_notMem_integerDigits since.seconds)] at same
  exact ⟨integerDigits_injective same.1, integerDigits_injective same.2.2⟩

theorem inRangeOf_key (user : Int) (since : Instant) :
    inRangeOf user (key user since) = true := by
  have above : userPrefix user ≤ key user since := by
    show ¬(key user since).toList < (userPrefix user).toList
    unfold key
    rw [String.toList_append]
    exact List.le_append_left
  have below : key user since < userEnd user := by
    show (key user since).toList < (userEnd user).toList
    unfold userEnd
    rw [toList_key, String.toList_ofList]
    exact List.append_left_lt (List.cons_lt_cons_iff.2 (Or.inl (by decide)))
  unfold inRangeOf
  rw [decide_eq_true above, decide_eq_true below]
  rfl

/-- A text from a prefix with a colon up to the same prefix with a semicolon begins with the
former. -/
theorem prefix_of_between : ∀ {first text : List Char},
    ¬text < first ++ [':'] → text < first ++ [';'] → first ++ [':'] <+: text
  | [], [], above, _ => absurd (List.nil_lt_cons _ _) above
  | [], c :: rest, above, below => by
    have less : c < ';' := by simpa [List.cons_lt_cons_iff] using below
    have notLess : ¬c < ':' := fun less => above (List.cons_lt_cons_iff.2 (Or.inl less))
    obtain rfl : c = ':' := by
      apply Char.ext
      apply UInt32.toNat_inj.1
      have upper : c.val.toNat < 59 := less
      have lower : ¬c.val.toNat < 58 := notLess
      show c.val.toNat = 58
      omega
    exact ⟨rest, rfl⟩
  | d :: first, [], above, _ => absurd (List.nil_lt_cons _ _) above
  | d :: first, c :: rest, above, below => by
    have notLess : ¬c < d := fun less => above (List.cons_lt_cons_iff.2 (Or.inl less))
    rcases List.cons_lt_cons_iff.1 below with less | ⟨rfl, less⟩
    · exact absurd less notLess
    · obtain ⟨tail, rfl⟩ := prefix_of_between
        (fun less => above (List.cons_lt_cons_iff.2 (Or.inr ⟨rfl, less⟩))) less
      exact ⟨tail, rfl⟩

/-- The ranges of the keys of two users have no key in common. -/
theorem eq_of_inRangeOf {text : String} (h : inRangeOf user text = true)
    (h' : inRangeOf other text = true) : user = other := by
  have split : ∀ {user : Int}, inRangeOf user text = true →
      ∃ rest, text.toList = integerDigits user ++ ':' :: rest := by
    intro user h
    obtain ⟨above, below⟩ := Bool.and_eq_true_iff.1 h
    have above : ¬text.toList < (userPrefix user).toList := of_decide_eq_true above
    have below : text.toList < (userEnd user).toList := of_decide_eq_true below
    unfold userPrefix at above
    unfold userEnd at below
    rw [String.toList_ofList] at above below
    obtain ⟨rest, same⟩ := prefix_of_between above below
    exact ⟨rest, by rw [← same, List.append_assoc, List.singleton_append]⟩
  obtain ⟨rest, same⟩ := split h
  obtain ⟨rest', same'⟩ := split h'
  have cut : ∀ (n : Int) (rest : List Char),
      (integerDigits n ++ ':' :: rest).takeWhile (fun c => decide (c ≠ ':')) = integerDigits n := by
    intro n rest
    have before : ∀ c ∈ integerDigits n, decide (c ≠ ':') = true := by
      intro c member
      exact decide_eq_true (ne_of_mem_of_not_mem member (colon_notMem_integerDigits n))
    rw [List.takeWhile_append_of_pos before, List.takeWhile_cons_of_neg (by simp),
      List.append_nil]
  apply integerDigits_injective
  rw [← cut user rest, ← cut other rest', ← same, same']

end CacheKey

/-! ## What the cache does when all tables can be reached -/

namespace Store

variable {store : Store} {now user : Int} {since : Instant} {report : Report}

theorem reaches_of_outOfReach (all : store.outOfReach = []) (tables : List Table) :
    store.reaches tables = true := by
  unfold reaches
  simp [all]

theorem reach_of_outOfReach (all : store.outOfReach = []) (statement : Statement)
    (tables : List Table) : store.reach statement tables = .ok () :=
  reach_eq_ok.2 (reaches_of_outOfReach all tables)

/-- The cache is looked up for a report that is still of use. -/
theorem cachedReport_eq_live (reached : store.outOfReach = []) :
    store.cachedReport now user since =
      match (Rows.get? CachedReport.key store.cachedReports (CacheKey.key user since)).filter
        (fun row => decide (now < row.expiresAt)) with
      | none => .ok none
      | some row =>
        match Json.Reader.whole Report.fromJson row.body with
        | .ok report => .ok (some report)
        | .error _ => .error (.internal .unreadableCache) := by
  unfold cachedReport
  rw [reach_of_outOfReach reached]
  cases Rows.get? CachedReport.key store.cachedReports (CacheKey.key user since) with
  | none => rfl
  | some row =>
    by_cases live : now < row.expiresAt
    · rw [Option.filter_some_pos (by simpa using live)]
      exact if_pos live
    · rw [Option.filter_some_neg (by simpa using live)]
      exact if_neg live

/-- A report that is found is in an unexpired row of its key. -/
theorem cachedReport_eq_ok_some (h : store.cachedReport now user since = .ok (some report)) :
    ∃ row ∈ store.cachedReports, row.key = CacheKey.key user since ∧ now < row.expiresAt ∧
      Json.Reader.whole Report.fromJson row.body = .ok report := by
  obtain ⟨-, -, h⟩ := Outcome.bind_eq_ok.1 h
  split at h
  · cases h
  · next row found =>
    obtain ⟨member, key⟩ := Rows.get?_eq_some found
    split at h
    · next live =>
      refine ⟨row, member, key, live, ?_⟩
      split at h
      · next body =>
        cases h
        exact body
      · cases h
    · cases h

/-- A report in an unexpired row of its key is found. -/
theorem cachedReport_of_mem (all : store.outOfReach = [])
    (ascending : Rows.Ascending CachedReport.key store.cachedReports) {row : CachedReport}
    (member : row ∈ store.cachedReports) (key : row.key = CacheKey.key user since)
    (live : now < row.expiresAt)
    (body : Json.Reader.whole Report.fromJson row.body = .ok report) :
    store.cachedReport now user since = .ok (some report) := by
  have found := ascending.get?_of_mem member
  rw [key] at found
  unfold cachedReport
  rw [reach_of_outOfReach all]
  simp only [bind, Except.bind, found, live, if_true, body]

/-- The row under which a report is kept. -/
def cacheRow (store : Store) (now : Int) (ttl : Nat) (user : Int) (since : Instant)
    (report : Report) : CachedReport :=
  let live := store.cachedReports.filter fun row => now < row.expiresAt
  let key := CacheKey.key user since
  { key
    windowStart := ((Rows.get? CachedReport.key live key).map CachedReport.windowStart).getD
      since.seconds
    body := report.toJson.toText
    expiresAt := min (now + min (ttl : Int) maxInt64) maxInt64 }

theorem cacheReport_eq (all : store.outOfReach = []) (ttl : Nat) :
    store.cacheReport now ttl user since report =
      .ok { store with
        cachedReports := Rows.put CachedReport.key (store.cacheRow now ttl user since report)
          (store.cachedReports.filter fun row => now < row.expiresAt) } := by
  unfold cacheReport
  rw [reach_of_outOfReach all]
  rfl

/-- Of two texts that differ one is less. -/
theorem lt_of_ne_of_not_lt {a b : String} (different : a ≠ b) (notLess : ¬a < b) : b < a := by
  refine Decidable.byContradiction fun notGreater => different ?_
  exact String.le_antisymm (String.not_lt.1 notGreater) (String.not_lt.1 notLess)

theorem ascending_put {cachedReports : List CachedReport}
    (ascending : Rows.Ascending CachedReport.key cachedReports) (row : CachedReport) :
    Rows.Ascending CachedReport.key (Rows.put CachedReport.key row cachedReports) :=
  .put String.lt_trans lt_of_ne_of_not_lt ascending

/-- What a test passes of the rows after one has been put in place depends on the rows that it has
passed before. -/
theorem filter_put {cachedReports : List CachedReport}
    (ascending : Rows.Ascending CachedReport.key cachedReports) (row : CachedReport)
    {test keep : CachedReport → Bool} (kept : ∀ other, test other = true → keep other = true) :
    (Rows.put CachedReport.key row (cachedReports.filter keep)).filter test =
      (Rows.put CachedReport.key row (cachedReports.filter test)).filter test := by
  have same (side : CachedReport → Bool) :
      ((cachedReports.filter keep).filter side).filter test =
        ((cachedReports.filter test).filter side).filter test := by
    simp only [List.filter_filter]
    refine List.filter_congr fun other _ => ?_
    cases passes : test other
    · rfl
    · simp [kept other passes]
  have order (side : CachedReport → Bool) :
      Rows.Ascending CachedReport.key (cachedReports.filter side) := ascending.filter side
  rw [(order keep).put_eq String.lt_trans lt_of_ne_of_not_lt,
    (order test).put_eq String.lt_trans lt_of_ne_of_not_lt, List.filter_append,
    List.filter_append, List.filter_cons, List.filter_cons, same, same]

end Store

namespace Books

/-- Whoever drops the reports of a user drops all of them. -/
theorem invalidate_eq {books : Books} (shared : books.cache = .shared)
    (all : books.store.outOfReach = []) (user : Int) :
    books.invalidate user =
      { books with
        store := { books.store with
          cachedReports := books.store.cachedReports.filter fun row =>
            !CacheKey.inRangeOf user row.key } } := by
  unfold invalidate dropReports
  rw [shared]
  simp only [Store.dropCachedReports, Store.reach_of_outOfReach all, bind, Except.bind]

end Books
end ExpenseLedger
