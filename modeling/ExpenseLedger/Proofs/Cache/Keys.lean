import ExpenseLedger.Proofs.Cache.Interchange
import ExpenseLedger.Proofs.Text.Bytes
import Mathlib.Data.List.DropRight
import Mathlib.Tactic.TFAE

/-!
# The keys of one user

Whether a key is one of a user can be told from the key's beginning and from its place in the order of
bytes alike, however long the numbers of the users are and whatever their signs: `user_tfae`. So in
ordered rows the keys of a user stand side by side, from the first key on that is not below the user's
prefix, and both caches drop exactly these: `keys_separate_users`.
-/

namespace ExpenseLedger
namespace CacheKey

/-! ## Keys in the order of bytes -/

/-- A semicolon takes the place of the colons at the end of a text. -/
def prefixEnd (text : String) : String :=
  String.ofList (text.toList.rdropWhile (fun c => decide (c = ':')) ++ [';'])

section Keys

variable {user other : Int} {since start : Instant} {text : String}

theorem prefixEnd_userPrefix (user : Int) : prefixEnd (userPrefix user) = userEnd user := by
  have noColon : (integerDigits user).rdropWhile (fun c => decide (c = ':')) = integerDigits user := by
    apply List.rdropWhile_eq_self_iff.2
    intro nonempty colon
    apply colon_notMem_integerDigits user
    rw [← of_decide_eq_true colon]
    exact List.getLast_mem nonempty
  unfold prefixEnd userPrefix userEnd
  rw [String.toList_ofList, List.rdropWhile_concat_pos _ _ _ (by simp), noColon]

theorem startsWithUser_iff :
    startsWithUser user text = true ↔ bytesOf (userPrefix user) <+: bytesOf text := by
  unfold startsWithUser
  rw [List.isPrefixOf_iff_prefix, bytesOf_prefix_iff]

theorem inRangeOf_iff_bytes :
    inRangeOf user text = true ↔
      bytesOf (userPrefix user) ≤ bytesOf text ∧
        bytesOf text < bytesOf (prefixEnd (userPrefix user)) := by
  rw [inRangeOf_iff, prefixEnd_userPrefix, bytesOf_le_iff, bytesOf_lt_iff]

theorem user_tfae (user other : Int) (since : Instant) :
    List.TFAE [user = other,
      bytesOf (userPrefix user) <+: bytesOf (key other since),
      bytesOf (userPrefix user) ≤ bytesOf (key other since) ∧
        bytesOf (key other since) < bytesOf (prefixEnd (userPrefix user))] := by
  tfae_have 1 ↔ 3 := by
    rw [← inRangeOf_iff_bytes, inRangeOf_key_iff, eq_comm]
  tfae_have 2 ↔ 3 := by
    rw [← inRangeOf_iff_bytes, ← startsWithUser_iff, startsWithUser_eq_inRangeOf]
  tfae_finish

theorem key_eq_iff_floor : key user since = key other start ↔ user = other ∧ since.floor = start.floor := by
  rw [key_eq_iff]
  unfold Instant.floor Instant.ofSeconds
  simp only [Instant.mk.injEq, and_true]

end Keys

/-! ## Rows under keys -/

/-- A key of a user, of whatever window. -/
def IsKeyOf (user : Int) (text : String) : Prop :=
  ∃ since, text = key user since

/-- Rows under keys, in the order of the bytes of their keys. -/
structure Keyed {α : Type} (keyOf : α → String) (rows : List α) : Prop where
  ascending : rows.Pairwise fun a b => bytesOf (keyOf a) < bytesOf (keyOf b)
  keyed : ∀ row ∈ rows, ∃ user, IsKeyOf user (keyOf row)

/-- The rows of a user stand side by side, and they begin at the first row that is not below the user's
prefix. -/
structure Run {α : Type} (keyOf : α → String) (user : Int) (rows below own above : List α) : Prop where
  rows_eq : rows = below ++ own ++ above
  before : ∀ row ∈ below, bytesOf (keyOf row) < bytesOf (userPrefix user)
  begun : ∀ row ∈ own ++ above, bytesOf (userPrefix user) ≤ bytesOf (keyOf row)
  begins_own : ∀ row ∈ own, bytesOf (userPrefix user) <+: bytesOf (keyOf row)
  begins_other : ∀ row ∈ below ++ above, ¬bytesOf (userPrefix user) <+: bytesOf (keyOf row)
  isKeyOf_own : ∀ row ∈ own, IsKeyOf user (keyOf row)
  isKeyOf_other : ∀ row ∈ below ++ above, ¬IsKeyOf user (keyOf row)

section Runs

variable {α : Type} {keyOf : α → String} {user : Int} {rows below own above : List α} {text : String}

theorem isKeyOf_iff (keyed : ∃ other, IsKeyOf other text) :
    IsKeyOf user text ↔ inRangeOf user text = true := by
  obtain ⟨other, since, rfl⟩ := keyed
  rw [inRangeOf_key_iff]
  constructor
  · rintro ⟨start, same⟩
    exact (key_eq_iff.1 same).1
  · rintro rfl
    exact ⟨since, rfl⟩

theorem Keyed.isAscending (keyed : Keyed keyOf rows) : Rows.Ascending keyOf rows :=
  keyed.ascending.imp bytesOf_lt_iff.1

theorem Keyed.run (keyed : Keyed keyOf rows) (cut : Cut keyOf user rows below own above) :
    Run keyOf user rows below own above := by
  have inRows : ∀ row ∈ below ++ (own ++ above), ∃ other, IsKeyOf other (keyOf row) := by
    rw [← cut.rows_eq]
    exact keyed.keyed
  have others : ∀ row ∈ below ++ above, row ∈ below ++ (own ++ above) := by
    intro row member
    rcases List.mem_append.1 member with inBelow | inAbove
    · exact List.mem_append_left _ inBelow
    · exact List.mem_append_right _ (List.mem_append_right _ inAbove)
  constructor
  case rows_eq => rw [cut.rows_eq, List.append_assoc]
  case before => exact fun row member => bytesOf_lt_iff.2 (cut.below_lt row member)
  case begun => exact fun row member => bytesOf_le_iff.2 (String.not_lt.1 (cut.not_lt row member))
  case begins_own =>
    intro row member
    rw [← startsWithUser_iff, startsWithUser_eq_inRangeOf]
    exact cut.inRange row member
  case begins_other =>
    intro row member
    rw [← startsWithUser_iff, startsWithUser_eq_inRangeOf, cut.outside row member]
    exact Bool.false_ne_true
  case isKeyOf_own =>
    intro row member
    apply (isKeyOf_iff (inRows row (List.mem_append_right _ (List.mem_append_left _ member)))).2
    exact cut.inRange row member
  case isKeyOf_other =>
    intro row member
    rw [isKeyOf_iff (inRows row (others row member)), cut.outside row member]
    exact Bool.false_ne_true

theorem keyed_nil : Keyed keyOf [] :=
  ⟨List.Pairwise.nil, List.forall_mem_nil _⟩

theorem Keyed.filter (keyed : Keyed keyOf rows) (keep : α → Bool) : Keyed keyOf (rows.filter keep) :=
  ⟨keyed.ascending.filter _, fun row member => keyed.keyed row (List.mem_filter.1 member).1⟩

/-- A row that is put in its place is under a key like the others. -/
theorem Keyed.put (keyed : Keyed keyOf rows) {row : α} (own : IsKeyOf user (keyOf row)) :
    Keyed keyOf (Rows.put keyOf row rows) where
  ascending := by
    have ascending := keyed.isAscending
    exact (Rows.Ascending.put String.lt_trans Store.lt_of_ne_of_not_lt ascending).imp bytesOf_lt_iff.2
  keyed := by
    intro other member
    rcases Rows.mem_put member with rfl | old
    · exact ⟨user, own⟩
    · exact keyed.keyed other old

end Runs

end CacheKey

/-! ## What is kept in the caches -/

namespace CacheWorld

/-- All that is in the caches is under keys, in the order of their bytes. -/
structure Keyed (world : CacheWorld) : Prop where
  memory : CacheKey.Keyed CacheEntry.key world.memory.entries
  shared : CacheKey.Keyed CachedReport.key world.store.cachedReports

section Runs

variable {world : CacheWorld}

theorem keyed_get (keyed : world.Keyed) (user : Int) (since : Instant) :
    (world.step (.get user since)).Keyed where
  memory := by
    simp only [step, MemoryCache.get]
    split
    · exact keyed.memory
    · split
      · exact keyed.memory
      · exact keyed.memory.filter _
  shared := keyed.shared

theorem keyed_set (keyed : world.Keyed) (user : Int) (since : Instant) (report : Report) (ttl : Nat) :
    (world.step (.set user since report ttl)).Keyed where
  memory := keyed.memory.put ⟨since, rfl⟩
  shared := by
    simp only [step]
    cases done : world.store.cacheReport world.clocks.millis ttl user since report with
    | error fault => exact keyed.shared
    | ok after =>
      obtain ⟨-, -, rest⟩ := Outcome.bind_eq_ok.1 done
      cases rest
      exact (keyed.shared.filter _).put ⟨since, rfl⟩

theorem keyed_invalidate (keyed : world.Keyed) (user : Int) :
    (world.step (.invalidate user)).Keyed where
  memory := by
    simp only [step]
    rw [MemoryCache.entries_invalidate keyed.memory.isAscending]
    exact keyed.memory.filter _
  shared := by
    simp only [step]
    cases done : world.store.dropCachedReports user with
    | error fault => exact keyed.shared
    | ok dropped =>
      obtain ⟨-, -, rest⟩ := Outcome.bind_eq_ok.1 done
      cases rest
      exact keyed.shared.filter _

theorem keyed_step (keyed : world.Keyed) (action : CacheAction) : (world.step action).Keyed := by
  cases action with
  | get user since => exact keyed_get keyed user since
  | set user since report ttl => exact keyed_set keyed user since report ttl
  | invalidate user => exact keyed_invalidate keyed user
  | pass wall monotonic => exact ⟨keyed.memory, keyed.shared⟩

/-- Whatever has been done with caches that were empty, all that is in them is under keys. -/
theorem keyed_ofActions (clocks : Clocks) {store : Store} (empty : store.cachedReports = [])
    (actions : List CacheAction) : (ofActions clocks store actions).Keyed := by
  have start : Keyed { clocks, store } := by
    refine ⟨CacheKey.keyed_nil, ?_⟩
    show CacheKey.Keyed CachedReport.key store.cachedReports
    rw [empty]
    exact CacheKey.keyed_nil
  unfold ofActions
  generalize ({ clocks, store } : CacheWorld) = world at start
  induction actions generalizing world with
  | nil => exact start
  | cons action actions ih => exact ih _ (keyed_step start action)

end Runs

end CacheWorld

theorem Store.dropCachedReports_of_cut {store : Store} {user : Int} {below own above : List CachedReport}
    (reached : store.reaches [.cachedReports] = true)
    (cut : CacheKey.Cut CachedReport.key user store.cachedReports below own above) :
    store.dropCachedReports user = .ok (own.length, { store with cachedReports := below ++ above }) := by
  have reach : store.reach .clearCache [.cachedReports] = .ok () := reach_eq_ok.2 reached
  unfold dropCachedReports
  rw [reach, cut.filter_inRangeOf, cut.filter_not_inRangeOf]
  rfl

/-- A key tells its user and the second at which its window starts. It begins with the prefix of one user
only, and lies from that prefix up to the prefix's end only for this user. In ordered rows the keys of a
user are one run, which both caches drop and count, and nothing else; and all that is ever in the caches
is in such rows. -/
theorem CacheKey.keys_separate_users :
    (∀ user other since start,
      key user since = key other start ↔ user = other ∧ since.floor = start.floor) ∧
    (∀ user other since, List.TFAE [user = other,
      bytesOf (userPrefix user) <+: bytesOf (key other since),
      bytesOf (userPrefix user) ≤ bytesOf (key other since) ∧
        bytesOf (key other since) < bytesOf (prefixEnd (userPrefix user))]) ∧
    (∀ (cache : MemoryCache) (user : Int), Keyed CacheEntry.key cache.entries →
      ∃ below own above, Run CacheEntry.key user cache.entries below own above ∧
        cache.invalidate user = (own.length, { entries := below ++ above })) ∧
    (∀ (store : Store) (user : Int), store.reaches [.cachedReports] = true →
      Keyed CachedReport.key store.cachedReports →
      ∃ below own above, Run CachedReport.key user store.cachedReports below own above ∧
        store.dropCachedReports user =
          .ok (own.length, { store with cachedReports := below ++ above })) ∧
    (∀ clocks (store : Store) actions, store.cachedReports = [] →
      (CacheWorld.ofActions clocks store actions).Keyed) := by
  refine ⟨fun _ _ _ _ => key_eq_iff_floor, user_tfae, ?_, ?_, ?_⟩
  · intro cache user keyed
    obtain ⟨below, own, above, cut⟩ := exists_cut keyed.isAscending user
    exact ⟨below, own, above, keyed.run cut, MemoryCache.invalidate_of_cut cut⟩
  · intro store user reached keyed
    obtain ⟨below, own, above, cut⟩ := exists_cut keyed.isAscending user
    exact ⟨below, own, above, keyed.run cut, Store.dropCachedReports_of_cut reached cut⟩
  · intro clocks store actions empty
    exact CacheWorld.keyed_ofActions clocks empty actions

/-- Reports of users whose ids have digits in common. -/
def CacheKey.alikeUsers : List CacheAction :=
  let report := Report.ofList [("food", 500)]
  [.set 1 .epoch report 600, .set 12 .epoch report 600, .set 1 (.ofSeconds (-86400)) report 600,
    .set (-1) .epoch report 600, .set 2 ⟨0, 999999999⟩ report 600]

/-- In the order of bytes a longer number may come first, and so may an earlier time. -/
theorem CacheKey.keys_separate_users_alike :
    let world := CacheWorld.ofActions ⟨1000000000, 5⟩ {} alikeUsers
    world.memory.entries.map CacheEntry.key = ["-1:0", "12:0", "1:-86400", "1:0", "2:0"] ∧
      (∃ below own above, Run CacheEntry.key 1 world.memory.entries below own above ∧
        world.memory.invalidate 1 = (own.length, { entries := below ++ above }) ∧ own.length = 2) ∧
      (∃ below own above, Run CachedReport.key 1 world.store.cachedReports below own above ∧
        world.store.dropCachedReports 1 =
          .ok (own.length, { world.store with cachedReports := below ++ above })) := by
  intro world
  obtain ⟨-, -, inMemory, inTables, runs⟩ := keys_separate_users
  have keyed : world.Keyed := runs ⟨1000000000, 5⟩ {} alikeUsers rfl
  have keys : world.memory.entries.map CacheEntry.key =
      ["-1:0", "12:0", "1:-86400", "1:0", "2:0"] := by
    decide +kernel
  have two : (world.memory.invalidate 1).1 = 2 := by decide +kernel
  obtain ⟨below, own, above, run, dropped⟩ := inMemory world.memory 1 keyed.memory
  refine ⟨keys, ⟨below, own, above, run, dropped, ?_⟩, ?_⟩
  · rw [dropped] at two
    exact two
  · exact inTables world.store 1 (by decide +kernel) keyed.shared

end ExpenseLedger
