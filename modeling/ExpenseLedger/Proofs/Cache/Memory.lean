import ExpenseLedger.Cache.Memory
import ExpenseLedger.Proofs.Cache
import ExpenseLedger.Proofs.Rows
import Mathlib.Data.List.TakeWhile

/-!
# The report cache in memory

What is found after each change of the cache. The keys of a user are the texts that begin with its
prefix, and these are the texts from the prefix up to the end of its range, so that in the order of
the keys they stand side by side: dropping them by two scans is filtering them out
(`MemoryCache.entries_invalidate`).
-/

namespace ExpenseLedger

/-! ## Scans of sorted lists -/

/-- A scan stops at the first row that fails the test, after which all rows fail it. -/
theorem eq_false_of_mem_dropWhile {α : Type} {test : α → Bool} {rows : List α}
    (closed : rows.Pairwise fun a b => test b = true → test a = true) {row : α}
    (member : row ∈ rows.dropWhile test) : test row = false := by
  induction rows with
  | nil => cases member
  | cons first rest ih =>
    obtain ⟨before, tail⟩ := List.pairwise_cons.1 closed
    cases passes : test first with
    | true =>
      rw [List.dropWhile_cons_of_pos passes] at member
      exact ih tail member
    | false =>
      rw [List.dropWhile_cons_of_neg (by simp [passes])] at member
      apply Bool.eq_false_iff.2
      intro pass
      rcases List.mem_cons.1 member with rfl | later
      · rw [pass] at passes
        cases passes
      · rw [before row later pass] at passes
        cases passes

theorem takeWhile_append_eq_left {α : Type} {test : α → Bool} {passing rest : List α}
    (pass : ∀ row ∈ passing, test row = true) (fail : ∀ row ∈ rest, test row = false) :
    (passing ++ rest).takeWhile test = passing := by
  have none : rest.takeWhile test = [] := by
    cases rest with
    | nil => rfl
    | cons first rest => exact List.takeWhile_cons_of_neg (by simp [fail first List.mem_cons_self])
  rw [List.takeWhile_append_of_pos pass, none, List.append_nil]

/-! ## The keys of a user -/

namespace CacheKey

/-- The texts that begin with a user's prefix are those in the range of the user's keys. -/
theorem startsWithUser_eq_inRangeOf (user : Int) (text : String) :
    startsWithUser user text = inRangeOf user text := by
  rw [Bool.eq_iff_iff]
  unfold startsWithUser inRangeOf
  rw [List.isPrefixOf_iff_prefix, Bool.and_eq_true_iff, decide_eq_true_iff, decide_eq_true_iff]
  constructor
  · rintro ⟨rest, same⟩
    constructor
    · show ¬text.toList < (userPrefix user).toList
      rw [← same]
      exact List.le_append_left
    · show text.toList < (userEnd user).toList
      rw [← same]
      unfold userPrefix userEnd
      rw [String.toList_ofList, String.toList_ofList, List.append_assoc]
      exact List.append_left_lt (List.cons_lt_cons_iff.2 (Or.inl (by decide)))
  · rintro ⟨above, below⟩
    have above : ¬text.toList < (userPrefix user).toList := above
    have below : text.toList < (userEnd user).toList := below
    unfold userPrefix at above ⊢
    unfold userEnd at below
    rw [String.toList_ofList] at above below ⊢
    exact prefix_of_between above below

theorem inRangeOf_key_iff {user other : Int} {since : Instant} :
    inRangeOf user (key other since) = true ↔ other = user := by
  constructor
  · exact fun within => eq_of_inRangeOf (inRangeOf_key other since) within
  · rintro rfl
    exact inRangeOf_key other since

theorem key_eq_iff {user other : Int} {since start : Instant} :
    key user since = key other start ↔ user = other ∧ since.seconds = start.seconds := by
  constructor
  · exact eq_of_key_eq
  · rintro ⟨rfl, same⟩
    unfold key
    rw [same]

/-- Rows in the order of their keys: those below the keys of a user, those in their range, and those
above it. -/
structure Cut {α : Type} (keyOf : α → String) (user : Int) (rows below own above : List α) : Prop where
  rows_eq : rows = below ++ (own ++ above)
  below_lt : ∀ row ∈ below, keyOf row < userPrefix user
  inRange : ∀ row ∈ own, inRangeOf user (keyOf row) = true
  end_le : ∀ row ∈ above, userEnd user ≤ keyOf row

section Cuts

variable {α : Type} {keyOf : α → String} {user : Int} {rows below own above : List α} {text : String}

theorem inRangeOf_iff :
    inRangeOf user text = true ↔ userPrefix user ≤ text ∧ text < userEnd user := by
  unfold inRangeOf
  rw [Bool.and_eq_true_iff, decide_eq_true_iff, decide_eq_true_iff]

theorem userPrefix_lt_userEnd (user : Int) : userPrefix user < userEnd user := by
  show (userPrefix user).toList < (userEnd user).toList
  unfold userPrefix userEnd
  rw [String.toList_ofList, String.toList_ofList]
  exact List.append_left_lt (List.cons_lt_cons_iff.2 (Or.inl (by decide)))

theorem closed_below (ascending : Rows.Ascending keyOf rows) (bound : String) :
    rows.Pairwise fun a b => decide (keyOf b < bound) = true → decide (keyOf a < bound) = true := by
  apply ascending.imp
  intro a b less below
  exact decide_eq_true (String.lt_trans less (of_decide_eq_true below))

/-- Ordered rows can be cut for every user. -/
theorem exists_cut (ascending : Rows.Ascending keyOf rows) (user : Int) :
    ∃ below own above, Cut keyOf user rows below own above := by
  have later : (rows.dropWhile fun row => decide (keyOf row < userPrefix user)).Pairwise
      fun a b => keyOf a < keyOf b :=
    ascending.sublist (List.dropWhile_suffix _).sublist
  refine ⟨rows.takeWhile fun row => decide (keyOf row < userPrefix user),
    (rows.dropWhile fun row => decide (keyOf row < userPrefix user)).takeWhile
      fun row => decide (keyOf row < userEnd user),
    (rows.dropWhile fun row => decide (keyOf row < userPrefix user)).dropWhile
      fun row => decide (keyOf row < userEnd user), ?_, ?_, ?_, ?_⟩
  · rw [List.takeWhile_append_dropWhile, List.takeWhile_append_dropWhile]
  · intro row member
    have below := List.mem_takeWhile_imp member
    exact of_decide_eq_true below
  · intro row member
    have ahead := List.mem_takeWhile_imp member
    have begun := eq_false_of_mem_dropWhile (closed_below ascending _)
      ((List.takeWhile_prefix _).mem member)
    exact inRangeOf_iff.2 ⟨String.not_lt.1 (of_decide_eq_false begun), of_decide_eq_true ahead⟩
  · intro row member
    have ended := eq_false_of_mem_dropWhile (closed_below later _) member
    exact String.not_lt.1 (of_decide_eq_false ended)

namespace Cut

theorem not_lt (cut : Cut keyOf user rows below own above) :
    ∀ row ∈ own ++ above, ¬keyOf row < userPrefix user := by
  intro row member less
  rcases List.mem_append.1 member with inOwn | inAbove
  · exact String.not_lt.2 (inRangeOf_iff.1 (cut.inRange row inOwn)).1 less
  · exact String.not_lt.2 (cut.end_le row inAbove)
      (String.lt_trans less (userPrefix_lt_userEnd user))

theorem outside (cut : Cut keyOf user rows below own above) :
    ∀ row ∈ below ++ above, inRangeOf user (keyOf row) = false := by
  intro row member
  apply Bool.eq_false_iff.2
  intro within
  obtain ⟨begun, ahead⟩ := inRangeOf_iff.1 within
  rcases List.mem_append.1 member with inBelow | inAbove
  · exact String.not_lt.2 begun (cut.below_lt row inBelow)
  · exact String.not_lt.2 (cut.end_le row inAbove) ahead

theorem filter_inRangeOf (cut : Cut keyOf user rows below own above) :
    (rows.filter fun row => inRangeOf user (keyOf row)) = own := by
  have outside := cut.outside
  have low : (below.filter fun row => inRangeOf user (keyOf row)) = [] :=
    List.filter_eq_nil_iff.2 fun row member => by simp [outside row (List.mem_append_left _ member)]
  have high : (above.filter fun row => inRangeOf user (keyOf row)) = [] :=
    List.filter_eq_nil_iff.2 fun row member => by simp [outside row (List.mem_append_right _ member)]
  rw [cut.rows_eq, List.filter_append, List.filter_append, low, high,
    List.filter_eq_self.2 cut.inRange, List.nil_append, List.append_nil]

theorem filter_not_inRangeOf (cut : Cut keyOf user rows below own above) :
    (rows.filter fun row => !inRangeOf user (keyOf row)) = below ++ above := by
  have outside := cut.outside
  have low : (below.filter fun row => !inRangeOf user (keyOf row)) = below :=
    List.filter_eq_self.2 fun row member => by simp [outside row (List.mem_append_left _ member)]
  have high : (above.filter fun row => !inRangeOf user (keyOf row)) = above :=
    List.filter_eq_self.2 fun row member => by simp [outside row (List.mem_append_right _ member)]
  have none : (own.filter fun row => !inRangeOf user (keyOf row)) = [] :=
    List.filter_eq_nil_iff.2 fun row member => by simp [cut.inRange row member]
  rw [cut.rows_eq, List.filter_append, List.filter_append, low, high, none, List.nil_append]

end Cut

end Cuts

end CacheKey

namespace MemoryCache

/-- The entries are in the order of their keys. -/
def Ascending (cache : MemoryCache) : Prop :=
  Rows.Ascending CacheEntry.key cache.entries

variable {cache : MemoryCache} {now later user other : Int} {since start : Instant}

/-- What is found is the entry of the key, as long as it is of use. -/
theorem get_fst (cache : MemoryCache) (now user : Int) (since : Instant) :
    (cache.get now user since).1 =
      (Rows.get? CacheEntry.key cache.entries (CacheKey.key user since)).bind fun entry =>
        if now < entry.expiresAt then some entry.report else none := by
  simp only [get]
  cases Rows.get? CacheEntry.key cache.entries (CacheKey.key user since) with
  | none => rfl
  | some entry => by_cases live : now < entry.expiresAt <;> simp only [live, if_true, if_false,
      Option.bind_some]

/-- An entry that is found later would have been found if an expired one had been left. -/
theorem get_get (cache : MemoryCache) (order : now ≤ later) (user other : Int)
    (since start : Instant) :
    ((cache.get now user since).2.get later other start).1 = (cache.get later other start).1 := by
  rw [get_fst, get_fst]
  simp only [get]
  cases found : Rows.get? CacheEntry.key cache.entries (CacheKey.key user since) with
  | none => rfl
  | some entry =>
    by_cases live : now < entry.expiresAt
    · simp only [live, if_true]
    · simp only [live, if_false]
      by_cases same : CacheKey.key user since = CacheKey.key other start
      · have gone : Rows.get? CacheEntry.key
            (cache.entries.filter fun entry => entry.key ≠ CacheKey.key user since)
            (CacheKey.key other start) = none := by
          refine Rows.get?_eq_none.2 fun row member => ?_
          rw [← same]
          exact of_decide_eq_true (List.mem_filter.1 member).2
        have expired : ¬later < entry.expiresAt := fun less =>
          live (Int.lt_of_le_of_lt order less)
        rw [gone, ← same, found, Option.bind_some, Option.bind_none, if_neg expired]
      · rw [Rows.get?_filter fun row _ own => decide_eq_true (own ▸ Ne.symm same)]

/-- A report that is kept takes the place of one for the same user and second. -/
theorem get_set (cache : MemoryCache) (now : Int) (ttl : Nat) (user : Int) (since : Instant)
    (report : Report) (later other : Int) (start : Instant) :
    ((cache.set now ttl user since report).get later other start).1 =
      if user = other ∧ since.seconds = start.seconds then
        if later < now + ttl then some report else none
      else (cache.get later other start).1 := by
  rw [get_fst, get_fst]
  unfold set
  rw [Rows.get?_put]
  by_cases same : CacheKey.key user since = CacheKey.key other start
  · rw [if_pos same, if_pos (CacheKey.key_eq_iff.1 same)]
    rfl
  · rw [if_neg same, if_neg fun own => same (CacheKey.key_eq_iff.2 own)]

/-- The first scan stops where the keys of the user begin, and the second where they end. -/
theorem invalidate_of_cut {below own above : List CacheEntry}
    (cut : CacheKey.Cut CacheEntry.key user cache.entries below own above) :
    cache.invalidate user = (own.length, { entries := below ++ above }) := by
  have first : (cache.entries.takeWhile fun entry =>
      decide (entry.key < CacheKey.userPrefix user)) = below := by
    rw [cut.rows_eq]
    apply takeWhile_append_eq_left
    · exact fun entry member => decide_eq_true (cut.below_lt entry member)
    · exact fun entry member => decide_eq_false (cut.not_lt entry member)
  have rest : cache.entries.drop below.length = own ++ above := by
    rw [cut.rows_eq, List.drop_left]
  have second : ((own ++ above).takeWhile fun entry => CacheKey.startsWithUser user entry.key) = own := by
    simp only [CacheKey.startsWithUser_eq_inRangeOf]
    apply takeWhile_append_eq_left
    · exact cut.inRange
    · exact fun entry member => cut.outside entry (List.mem_append_right _ member)
  simp only [invalidate]
  rw [first, rest, second, List.drop_left]

/-- Both scans together filter out what belongs to the user. -/
theorem entries_invalidate (ascending : cache.Ascending) (user : Int) :
    (cache.invalidate user).2.entries =
      cache.entries.filter fun entry => !CacheKey.inRangeOf user entry.key := by
  obtain ⟨below, own, above, cut⟩ := CacheKey.exists_cut ascending user
  rw [invalidate_of_cut cut, cut.filter_not_inRangeOf]

theorem get_invalidate (ascending : cache.Ascending) (user later other : Int) (start : Instant) :
    ((cache.invalidate user).2.get later other start).1 =
      if user = other then none else (cache.get later other start).1 := by
  rw [get_fst, get_fst, entries_invalidate ascending, Rows.Ascending.get?_filter ascending]
  cases found : Rows.get? CacheEntry.key cache.entries (CacheKey.key other start) with
  | none => simp
  | some entry =>
    obtain ⟨-, key⟩ := Rows.get?_eq_some found
    by_cases own : user = other
    · subst own
      rw [Option.filter_some_neg (by simp [key, CacheKey.inRangeOf_key]), if_pos rfl]
      rfl
    · have outside : CacheKey.inRangeOf user entry.key = false := by
        rw [key]
        exact Bool.eq_false_iff.2 fun within => own (CacheKey.inRangeOf_key_iff.1 within).symm
      rw [Option.filter_some_pos (by simp [outside]), if_neg own]

theorem Ascending.get (ascending : cache.Ascending) (now user : Int) (since : Instant) :
    (cache.get now user since).2.Ascending := by
  simp only [MemoryCache.get]
  split
  · exact ascending
  · split
    · exact ascending
    · exact List.Pairwise.filter _ ascending

theorem Ascending.set (ascending : cache.Ascending) (now : Int) (ttl : Nat) (user : Int)
    (since : Instant) (report : Report) : (cache.set now ttl user since report).Ascending :=
  Rows.Ascending.put String.lt_trans Store.lt_of_ne_of_not_lt ascending

theorem Ascending.invalidate (ascending : cache.Ascending) (user : Int) :
    (cache.invalidate user).2.Ascending := by
  unfold MemoryCache.Ascending
  rw [entries_invalidate ascending]
  exact List.Pairwise.filter _ ascending

end MemoryCache
end ExpenseLedger
