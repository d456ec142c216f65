import ExpenseLedger.Proofs.Ledger.Regular

/-!
# Which expenses are written, and what that does

In regular books whose tables can all be reached, an expense is written exactly if it is `Priced` and
covered by the limit of the month, should it be one of the month. `Books.Wrote` says what is different
afterwards, and that nothing else is.
-/

namespace ExpenseLedger

/-! ## The month -/

/-- A month begins and ends with whole seconds, so a fraction of a second does not matter. -/
theorem Instant.inMonthOf_iff_floor {t now : Instant} :
    t.InMonthOf now ↔ now.startOfMonth ≤ t.floor ∧ t.floor < now.startOfNextMonth := by
  have upper (second : Int) : t < Instant.ofSeconds second ↔ t.floor < Instant.ofSeconds second := by
    show (t.seconds < second ∨ t.seconds = second ∧ t.nanos < 0) ↔
      (t.seconds < second ∨ t.seconds = second ∧ 0 < 0)
    omega
  have lower (second : Int) : Instant.ofSeconds second ≤ t ↔ Instant.ofSeconds second ≤ t.floor := by
    show (second < t.seconds ∨ second = t.seconds ∧ 0 ≤ t.nanos) ↔
      (second < t.seconds ∨ second = t.seconds ∧ 0 ≤ 0)
    omega
  exact and_congr (lower _) (upper _)

namespace Store

variable {store : Store}

theorem exists_category? {category : Category} (member : category ∈ store.categories) :
    ∃ row, store.category? category.id = some row := by
  refine Option.isSome_iff_exists.1 (List.find?_isSome.2 ⟨category, member, ?_⟩)
  exact decide_eq_true rfl

theorem exists_categoryNamed?_iff {user : Int} {name : String} :
    (∃ row, store.categoryNamed? user name = some row) ↔
      ∃ row ∈ store.categories, row.user = user ∧ row.name = name := by
  rw [← Option.isSome_iff_exists]
  unfold categoryNamed?
  simp

theorem addExpense_eq (reached : store.outOfReach = []) (numbered : FitsInt64 store.nextExpense)
    {expense : NewExpense} {user : User} {category : Category}
    (found : store.user? expense.user = some user)
    (filed : store.category? expense.category = some category) :
    store.addExpense expense = .ok (store.withExpense (store.nextExpenseRow expense)) := by
  unfold addExpense
  rw [reach_of_outOfReach reached, grant_of_fits numbered]
  simp only [bind, Except.bind, found, filed]
  rfl

/-- What a charge fails with that the limit does not cover. It runs into the limit, unless 64 bits do
not hold what would be left. -/
def shortage (row : User) (base : Int) : Error :=
  if FitsInt64 (row.currentLimit - base) then .limitExceeded
  else .database (.failed .chargeLimit)

theorem shortage_eq_limitExceeded {row : User} {base : Int} :
    shortage row base = .limitExceeded ↔ FitsInt64 (row.currentLimit - base) := by
  unfold shortage
  by_cases room : FitsInt64 (row.currentLimit - base) <;> simp [room]

theorem charge_eq (reached : store.outOfReach = []) {user base : Int} {row : User}
    (found : store.user? user = some row) (limited : row.Limited) (base_pos : 0 < base) :
    store.charge user base =
      if row.currentLimit < base then .error (shortage row base)
      else .ok (store.putUser (charged row base)) := by
  have less : row.currentLimit - base < 0 ↔ row.currentLimit < base := by omega
  unfold charge changeUser
  rw [reach_of_outOfReach reached]
  simp only [bind, Except.bind, found, less]
  by_cases short : row.currentLimit < base
  · simp only [short, if_true]
    unfold shortage
    by_cases room : FitsInt64 (row.currentLimit - base) <;> simp [room]
  · have room : FitsInt64 (row.currentLimit - base) := by
      have upper := limited.currentLimit.2
      unfold FitsInt64 minInt64
      omega
    simp only [room, short, not_true_eq_false, if_false]
    rfl

end Store

namespace ExpenseRequest

/-- The timestamp in whole seconds lies in the month of an instant. -/
def IsOfMonth (request : ExpenseRequest) (now : Instant) : Prop :=
  now.startOfMonth ≤ request.time.floor ∧ request.time.floor < now.startOfNextMonth

instance (request : ExpenseRequest) (now : Instant) : Decidable (request.IsOfMonth now) :=
  inferInstanceAs (Decidable (_ ∧ _))

/-- An expense that can be booked, as far as the limit is not concerned: its user, and the amount in
the reference currency. -/
structure Priced (request : ExpenseRequest) (store : Store) (row : User) (base : Int) : Prop where
  positive : 0 < request.amount.minor
  user : store.user? request.user = some row
  category : ∃ category ∈ store.categories, category.user = request.user ∧
    category.name = trim request.category
  converted : ∃ currency rate, store.currency? row.currency = some currency ∧
    Rate.ofBinary64 currency.rate = .ok rate ∧
    Conversion.toBase request.amount.minor rate = .ok base
  base_pos : 0 < base

/-! ## What the steps before the booking read -/

section Reads

variable {request : ExpenseRequest} {store : Store}

theorem checkAmount_eq_ok {u : Unit} :
    request.checkAmount = .ok u ↔ 0 < request.amount.minor := by
  unfold checkAmount Amount.isPositive
  by_cases positive : 0 < request.amount.minor <;> simp [positive]

theorem readUser_eq_ok (reached : store.outOfReach = []) {currency : Int} :
    request.readUser store = .ok currency ↔ 0 < request.amount.minor ∧
      ∃ row, store.user? request.user = some row ∧ row.currency = currency := by
  have all := Store.reaches_of_outOfReach reached [.users]
  unfold readUser
  simp only [Outcome.bind_eq_ok, checkAmount_eq_ok, exists_const, Store.user_eq_ok, all, true_and,
    Except.ok.injEq]

theorem readCategory_eq_ok (reached : store.outOfReach = []) {id : Int} :
    request.readCategory store = .ok id ↔
      ∃ row, store.categoryNamed? request.user request.categoryName = some row ∧ row.id = id := by
  refine ⟨Writing.readCategory_eq_ok, ?_⟩
  rintro ⟨row, named, rfl⟩
  have all := Store.reaches_of_outOfReach reached [.categories]
  exact Outcome.bind_eq_ok.2 ⟨some row.id,
    Store.categoryId_eq_ok.2 ⟨all, congrArg (Option.map Category.id) named⟩, rfl⟩

theorem price_eq_ok (reached : store.outOfReach = []) {currency base : Int} :
    request.price currency store = .ok base ↔ 0 < base ∧
      ∃ row rate, store.currency? currency = some row ∧ Rate.ofBinary64 row.rate = .ok rate ∧
        Conversion.toBase request.amount.minor rate = .ok base := by
  have all := Store.reaches_of_outOfReach reached [.currencies]
  constructor
  · intro h
    obtain ⟨converted, conversion, h⟩ := Outcome.bind_eq_ok.1 h
    obtain ⟨rate, rated, conversion⟩ := Outcome.bind_eq_ok.1 conversion
    obtain ⟨row, found, made⟩ := Store.exists_row_of_rate rated
    split at h
    · next positive =>
      cases h
      refine ⟨positive, row, rate, found, made, ?_⟩
      cases result : Conversion.toBase request.amount.minor rate with
      | ok value =>
        rw [result] at conversion
        cases conversion
        rfl
      | error fault =>
        rw [result] at conversion
        cases conversion
    · cases h
  · rintro ⟨positive, row, rate, found, made, conversion⟩
    have rated : store.rate currency = .ok rate := by
      refine Outcome.bind_eq_ok.2 ⟨row, Store.currency_eq_ok.2 ⟨all, found⟩, ?_⟩
      rw [made]
      rfl
    refine Outcome.bind_eq_ok.2 ⟨base, Outcome.bind_eq_ok.2 ⟨rate, rated, ?_⟩, if_pos positive⟩
    rw [conversion]
    rfl

/-! ## Only a charge runs into the limit -/

theorem reach_ne_limitExceeded (store : Store) (statement : Statement) (tables : List Table) :
    store.reach statement tables ≠ .error .limitExceeded := by
  unfold Store.reach
  split <;> nofun

theorem readUser_ne_limitExceeded (request : ExpenseRequest) (store : Store) :
    request.readUser store ≠ .error .limitExceeded := by
  intro h
  rcases Outcome.bind_eq_error.1 h with failed | ⟨u, -, h⟩
  · unfold checkAmount at failed
    split at failed <;> cases failed
  · rcases Outcome.bind_eq_error.1 h with failed | ⟨row, -, h⟩
    · rcases Outcome.bind_eq_error.1 failed with failed | ⟨u, -, failed⟩
      · exact reach_ne_limitExceeded _ _ _ failed
      · split at failed <;> cases failed
    · cases h

theorem readCategory_ne_limitExceeded (request : ExpenseRequest) (store : Store) :
    request.readCategory store ≠ .error .limitExceeded := by
  intro h
  rcases Outcome.bind_eq_error.1 h with failed | ⟨u, -, h⟩
  · rcases Outcome.bind_eq_error.1 failed with failed | ⟨u, -, failed⟩
    · exact reach_ne_limitExceeded _ _ _ failed
    · cases failed
  · split at h <;> cases h

theorem price_ne_limitExceeded (request : ExpenseRequest) (currency : Int) (store : Store) :
    request.price currency store ≠ .error .limitExceeded := by
  intro h
  rcases Outcome.bind_eq_error.1 h with failed | ⟨u, -, h⟩
  · rcases Outcome.bind_eq_error.1 failed with failed | ⟨rate, -, failed⟩
    · rcases Outcome.bind_eq_error.1 failed with failed | ⟨u, -, failed⟩
      · rcases Outcome.bind_eq_error.1 failed with failed | ⟨u, -, failed⟩
        · exact reach_ne_limitExceeded _ _ _ failed
        · split at failed <;> cases failed
      · unfold Error.ofRate at failed
        split at failed <;> cases failed
    · unfold Error.ofConversion at failed
      split at failed <;> cases failed
  · split at h <;> cases h

theorem record_ne_limitExceeded {request : ExpenseRequest} {now : Instant} {category base : Int}
    {store : Store} (other : ¬request.IsOfMonth now) :
    request.record now category base store ≠ .error .limitExceeded := by
  have month : request.time.InMonthOf now ↔ request.IsOfMonth now := Instant.inMonthOf_iff_floor
  unfold record
  simp only [month, other, decide_false]
  show store.addExpense _ ≠ _
  intro h
  rcases Outcome.bind_eq_error.1 h with failed | ⟨u, -, h⟩
  · exact reach_ne_limitExceeded _ _ _ failed
  · rcases Outcome.bind_eq_error.1 h with failed | ⟨id, -, h⟩
    · unfold Store.grant at failed
      split at failed <;> cases failed
    · split at h <;> cases h

end Reads

/-! ## The booking -/

/-- The tables after the expense has been booked, and charged if it is one of the month. -/
def booked (request : ExpenseRequest) (now : Instant) (store : Store) (row : User)
    (category base : Int) : Store :=
  { store with
    users := if request.IsOfMonth now then (store.putUser (Store.charged row base)).users
      else store.users
    expenses := store.expenses ++ [store.nextExpenseRow
      { user := request.user, category, time := request.time, amount := base }]
    nextExpense := store.nextExpense + 1 }

theorem record_eq {request : ExpenseRequest} {now : Instant} {store : Store} {row : User}
    {category : Category} {base : Int} (reached : store.outOfReach = [])
    (numbered : FitsInt64 store.nextExpense) (limited : row.Limited)
    (found : store.user? request.user = some row) (member : category ∈ store.categories)
    (base_pos : 0 < base) :
    request.record now category.id base store =
      if request.IsOfMonth now ∧ row.currentLimit < base then .error (Store.shortage row base)
      else .ok (request.booked now store row category.id base) := by
  obtain ⟨filed, known⟩ := Store.exists_category? member
  have month : request.time.InMonthOf now ↔ request.IsOfMonth now := Instant.inMonthOf_iff_floor
  unfold record booked
  simp only [month]
  by_cases ofMonth : request.IsOfMonth now
  · simp only [ofMonth, decide_true, true_and, if_true]
    show (store.charge request.user base >>= fun charged => charged.addExpense _) = _
    rw [Store.charge_eq reached found limited base_pos]
    by_cases short : row.currentLimit < base
    · simp only [short, if_true]
      rfl
    · have charged : (store.putUser (Store.charged row base)).user? request.user =
          some (Store.charged row base) := by
        rw [← Store.user?_id found]
        exact Store.user?_putUser_self store (Store.charged row base)
      simp only [short, if_false]
      let paid : Store := store.putUser (Store.charged row base)
      have paidReached : paid.outOfReach = [] := reached
      exact Store.addExpense_eq paidReached numbered charged known
  · simp only [ofMonth, decide_false, false_and, if_false]
    exact Store.addExpense_eq reached numbered found known

end ExpenseRequest

namespace Books

variable {books after : Books} {request : ExpenseRequest} {now : Instant}

/-! ## The whole call -/

/-- A priced expense is booked under a category of its name, unless the limit is in the way. -/
theorem writeExpense_of_priced (reached : books.store.outOfReach = [])
    (numbered : FitsInt64 books.store.nextExpense) (regular : books.Regular) {row : User} {base : Int}
    (priced : request.Priced books.store row base) :
    ∃ category ∈ books.store.categories, category.user = request.user ∧
      category.name = trim request.category ∧
      books.writeExpense request now =
        if request.IsOfMonth now ∧ row.currentLimit < base then .error (Store.shortage row base)
        else .ok (Books.invalidate
          { books with store := request.booked now books.store row category.id base }
          request.user) := by
  obtain ⟨category, named⟩ := Store.exists_categoryNamed?_iff.2 priced.category
  obtain ⟨member, owner, name⟩ := Store.categoryNamed?_eq_some named
  refine ⟨category, member, owner, name, ?_⟩
  obtain ⟨currency, rate, known, rated, conversion⟩ := priced.converted
  have read : request.readUser books.store = .ok row.currency :=
    (ExpenseRequest.readUser_eq_ok reached).2 ⟨priced.positive, row, priced.user, rfl⟩
  have filed : request.readCategory books.store = .ok category.id :=
    (ExpenseRequest.readCategory_eq_ok reached).2 ⟨category, named, rfl⟩
  have price : request.price row.currency books.store = .ok base :=
    (ExpenseRequest.price_eq_ok reached).2
      ⟨priced.base_pos, currency, rate, known, rated, conversion⟩
  unfold writeExpense withStore
  rw [read, filed]
  simp only [bind, Except.bind, price]
  rw [ExpenseRequest.record_eq reached numbered (regular.limited priced.user) priced.user member
    priced.base_pos]
  by_cases short : request.IsOfMonth now ∧ row.currentLimit < base
  · rw [if_pos short, if_pos short]
  · rw [if_neg short, if_neg short]

/-- What got past the steps before the booking was priced. -/
theorem exists_priced (reached : books.store.outOfReach = []) {currency id base : Int}
    (read : request.readUser books.store = .ok currency)
    (filed : request.readCategory books.store = .ok id)
    (price : request.price currency books.store = .ok base) :
    ∃ row, request.Priced books.store row base := by
  obtain ⟨positive, row, found, rfl⟩ := (ExpenseRequest.readUser_eq_ok reached).1 read
  obtain ⟨category, named, -⟩ := (ExpenseRequest.readCategory_eq_ok reached).1 filed
  obtain ⟨base_pos, currency, rate, known, rated, conversion⟩ :=
    (ExpenseRequest.price_eq_ok reached).1 price
  exact ⟨row, positive, found, Store.exists_categoryNamed?_iff.1 ⟨category, named⟩,
    ⟨currency, rate, known, rated, conversion⟩, base_pos⟩

theorem exists_priced_of_ok (reached : books.store.outOfReach = [])
    (h : books.writeExpense request now = .ok after) :
    ∃ row base, request.Priced books.store row base := by
  obtain ⟨currency, read, h⟩ := Outcome.bind_eq_ok.1 h
  obtain ⟨id, filed, h⟩ := Outcome.bind_eq_ok.1 h
  obtain ⟨base, price, -⟩ := Outcome.bind_eq_ok.1 h
  obtain ⟨row, priced⟩ := exists_priced reached read filed price
  exact ⟨row, base, priced⟩

theorem exists_priced_of_limitExceeded (reached : books.store.outOfReach = [])
    (h : books.writeExpense request now = .error .limitExceeded) :
    ∃ row base, request.Priced books.store row base := by
  rcases Outcome.bind_eq_error.1 h with failed | ⟨currency, read, h⟩
  · exact absurd failed (request.readUser_ne_limitExceeded _)
  rcases Outcome.bind_eq_error.1 h with failed | ⟨id, filed, h⟩
  · exact absurd failed (request.readCategory_ne_limitExceeded _)
  rcases Outcome.bind_eq_error.1 h with failed | ⟨base, price, -⟩
  · exact absurd failed (request.price_ne_limitExceeded currency _)
  obtain ⟨row, priced⟩ := exists_priced reached read filed price
  exact ⟨row, base, priced⟩

/-! ## What is different afterwards -/

/-- What writing an expense changes: there is one more row, its user is charged if it is one of the
month, the user's finished reports are gone, and all else is as it was. -/
structure Wrote (books : Books) (request : ExpenseRequest) (now : Instant) (base : Int)
    (after : Books) : Prop where
  expense : ∃ category ∈ books.store.categories, category.user = request.user ∧
    category.name = trim request.category ∧
    after.store.expenses = books.store.expenses ++
      [{ id := books.store.nextExpense, user := request.user, category := category.id,
         time := request.time.floor.seconds, amount := base }]
  nextExpense : after.store.nextExpense = books.store.nextExpense + 1
  users : after.store.users = books.store.users.map fun row =>
    if row.id = request.user ∧ request.IsOfMonth now then
      { row with currentLimit := row.currentLimit - base }
    else row
  entries : after.entries =
    books.entries.filter fun entry => !CacheKey.inRangeOf request.user entry.key
  range : ∀ entry ∈ books.entries,
    CacheKey.inRangeOf request.user entry.key = true ↔ entry.IsOf request.user
  cachedReports : after.store.cachedReports =
    if books.cache = .shared then
      books.store.cachedReports.filter fun row => !CacheKey.inRangeOf request.user row.key
    else books.store.cachedReports
  cache : after.cache = books.cache ∨
    ∃ old new, books.cache = .memory old ∧ after.cache = .memory new
  tables : { after.store with
    users := books.store.users, expenses := books.store.expenses
    nextExpense := books.store.nextExpense, cachedReports := books.store.cachedReports } =
      books.store

/-- The charged row takes the place of the user's row. -/
theorem users_booked (regular : books.Regular) {row : User} (category base : Int)
    (found : books.store.user? request.user = some row) :
    (request.booked now books.store row category base).users = books.store.users.map fun old =>
      if old.id = request.user ∧ request.IsOfMonth now then
        { old with currentLimit := old.currentLimit - base }
      else old := by
  obtain ⟨inTable, own⟩ := Rows.get?_eq_some found
  unfold ExpenseRequest.booked
  by_cases ofMonth : request.IsOfMonth now
  · simp only [ofMonth, if_true, and_true]
    have put : Rows.put User.id (Store.charged row base) books.store.users = _ :=
      regular.users.put_eq_map ⟨row, inTable, rfl⟩
    refine put.trans (List.map_congr_left fun old member => ?_)
    have same : old.id = (Store.charged row base).id ↔ old.id = request.user := by
      rw [← own]
      rfl
    simp only [same]
    by_cases theirs : old.id = request.user
    · rw [if_pos theirs, if_pos theirs,
        regular.users.eq_of_key_eq member inTable (theirs.trans own.symm)]
      rfl
    · rw [if_neg theirs, if_neg theirs]
  · simp only [ofMonth, if_false, and_false, List.map_id']

/-- Of what is cached under keys of users, only that of one user lies in that user's range. -/
theorem Regular.inRangeOf_iff (regular : books.Regular) (user : Int) {entry : KeptReport}
    (member : entry ∈ books.entries) :
    CacheKey.inRangeOf user entry.key = true ↔ entry.IsOf user := by
  obtain ⟨other, since, key⟩ := regular.keyed entry member
  rw [key, CacheKey.inRangeOf_key_iff]
  constructor
  · rintro rfl
    exact ⟨since, key⟩
  · rintro ⟨start, same⟩
    exact (CacheKey.eq_of_key_eq (key.symm.trans same)).1

/-- Dropping reports changes the cache where it is kept, in memory or in the tables. -/
theorem invalidate_cases (reached : books.store.outOfReach = []) (user : Int) :
    ((books.invalidate user).store.cachedReports =
      if books.cache = .shared then
        books.store.cachedReports.filter fun row => !CacheKey.inRangeOf user row.key
      else books.store.cachedReports) ∧
    ((books.invalidate user).cache = books.cache ∨
      ∃ old new, books.cache = .memory old ∧ (books.invalidate user).cache = .memory new) := by
  cases kind : books.cache with
  | memory old =>
    unfold invalidate dropReports
    simp only [kind]
    exact ⟨rfl, Or.inr ⟨old, _, rfl, rfl⟩⟩
  | shared =>
    rw [invalidate_eq kind reached]
    exact ⟨rfl, Or.inl kind⟩
  | broken fault =>
    unfold invalidate dropReports
    simp only [kind]
    exact ⟨rfl, Or.inl trivial⟩

theorem wrote_booked (reached : books.store.outOfReach = []) (regular : books.Regular)
    {row : User} {category : Category} {base : Int}
    (found : books.store.user? request.user = some row)
    (member : category ∈ books.store.categories) (owner : category.user = request.user)
    (name : category.name = trim request.category) :
    books.Wrote request now base (Books.invalidate
      { books with store := request.booked now books.store row category.id base }
      request.user) := by
  let middle : Books := { books with store := request.booked now books.store row category.id base }
  have middleReached : middle.store.outOfReach = [] := reached
  have ordered : middle.CacheOrdered := regular.ordered
  have same : middle.entries = books.entries := entries_of_same rfl rfl
  obtain ⟨cached, cache⟩ := middle.invalidate_cases middleReached request.user
  obtain ⟨cachedReports, after⟩ := middle.invalidate_store request.user
  show books.Wrote request now base (middle.invalidate request.user)
  constructor
  case expense =>
    refine ⟨category, member, owner, name, ?_⟩
    rw [after]
    rfl
  case nextExpense =>
    rw [after]
    rfl
  case users =>
    rw [after]
    exact users_booked regular category.id base found
  case entries =>
    rw [entries_invalidate middleReached ordered, same]
  case range => exact fun entry member => regular.inRangeOf_iff request.user member
  case cachedReports => exact cached
  case cache => exact cache
  case tables =>
    rw [after]
    rfl

/-! ## The contract -/

/-- All tables can be reached, and there is a number for one more expense. -/
structure Available (books : Books) : Prop where
  reached : books.store.outOfReach = []
  numbered : FitsInt64 books.store.nextExpense

/-- When an expense is written and what that does. A step that ends with an error changes nothing,
whoever else is writing. -/
structure WritesExactly (books : Books) (request : ExpenseRequest) (now : Instant) : Prop where
  accepted (available : books.Available) :
    (∃ after, books.writeExpense request now = .ok after) ↔
      ∃ row base, request.Priced books.store row base ∧
        (request.IsOfMonth now → base ≤ row.currentLimit)
  limited (available : books.Available) :
    books.writeExpense request now = .error .limitExceeded ↔
      ∃ row base, request.Priced books.store row base ∧ request.IsOfMonth now ∧
        row.currentLimit < base ∧ FitsInt64 (row.currentLimit - base)
  written (available : books.Available) (after : Books)
    (accepted : books.writeExpense request now = .ok after) :
    ∃ row base, request.Priced books.store row base ∧ books.Wrote request now base after
  exempt (other : ¬request.IsOfMonth now) :
    books.writeExpense request now ≠ .error .limitExceeded
  inTurns : books.writeInTurns request now 1 =
    match books.writeExpense request now with
    | .ok after => ([.ok ()], after)
    | .error e => ([.error e], books)
  refused (stage : Writing) (e : Error)
    (refused : (stage.step request now books).1 = .finished (.error e)) :
    (stage.step request now books).2 = books
  booking (stage : Writing) (changed : (stage.step request now books).2 ≠ books) :
    (stage.step request now books).1 = .recorded ∨
      (stage.step request now books).1 = .finished (.ok ())

/-- An expense of another month is booked without a look at the limit. -/
theorem writeExpense_exempt (other : ¬request.IsOfMonth now) :
    books.writeExpense request now ≠ .error .limitExceeded := by
  intro h
  rcases Outcome.bind_eq_error.1 h with failed | ⟨currency, read, h⟩
  · exact request.readUser_ne_limitExceeded _ failed
  rcases Outcome.bind_eq_error.1 h with failed | ⟨id, filed, h⟩
  · exact request.readCategory_ne_limitExceeded _ failed
  rcases Outcome.bind_eq_error.1 h with failed | ⟨base, price, h⟩
  · exact request.price_ne_limitExceeded currency _ failed
  rcases Outcome.bind_eq_error.1 h with failed | ⟨after, -, done⟩
  · rcases Outcome.bind_eq_error.1 failed with failed | ⟨after, -, done⟩
    · exact request.record_ne_limitExceeded other failed
    · cases done
  · cases done

/-- A caller alone takes the steps of the whole call. -/
theorem writeInTurns_one (books : Books) (request : ExpenseRequest) (now : Instant) :
    books.writeInTurns request now 1 =
      match books.writeExpense request now with
      | .ok after => ([.ok ()], after)
      | .error e => ([.error e], books) := by
  unfold writeInTurns writeExpense Writing.stepCount
  simp only [List.replicate, Writing.rounds, Writing.stepAll, Writing.step, bind, Except.bind]
  cases read : request.readUser books.store with
  | error e => rfl
  | ok currency =>
    cases filed : request.readCategory books.store with
    | error e => simp [Writing.proceed, Writing.result?]
    | ok id =>
      cases price : request.price currency books.store with
      | error e => simp [Writing.proceed, price, Writing.result?]
      | ok base =>
        cases booked : books.withStore (request.record now id base) <;>
          simp [Writing.proceed, price, booked, Writing.result?]

/-- Only booking and dropping reports change the books, and neither fails. -/
theorem step_of_changed {stage : Writing} (changed : (stage.step request now books).2 ≠ books) :
    (stage.step request now books).1 = .recorded ∨
      (stage.step request now books).1 = .finished (.ok ()) := by
  have effect := Writing.step_effect request now books stage
  generalize (stage.step request now books).1 = next at effect ⊢
  generalize (stage.step request now books).2 = after at effect changed
  cases effect with
  | recorded category base store booked => exact Or.inl rfl
  | dropped => exact Or.inr rfl
  | _ => exact absurd rfl changed

/-- In regular books, expenses are written exactly as agreed. -/
theorem Regular.writesExactly (regular : books.Regular) (request : ExpenseRequest)
    (now : Instant) : books.WritesExactly request now where
  accepted := by
    rintro ⟨reached, numbered⟩
    constructor
    · rintro ⟨after, h⟩
      obtain ⟨row, base, priced⟩ := exists_priced_of_ok reached h
      obtain ⟨category, -, -, -, result⟩ := writeExpense_of_priced reached numbered regular priced
      refine ⟨row, base, priced, fun ofMonth => Int.not_lt.1 fun short => ?_⟩
      rw [result, if_pos ⟨ofMonth, short⟩] at h
      cases h
    · rintro ⟨row, base, priced, covered⟩
      obtain ⟨category, -, -, -, result⟩ := writeExpense_of_priced reached numbered regular priced
      have notShort : ¬(request.IsOfMonth now ∧ row.currentLimit < base) :=
        fun short => absurd (covered short.1) (Int.not_le.2 short.2)
      exact ⟨_, result.trans (if_neg notShort)⟩
  limited := by
    rintro ⟨reached, numbered⟩
    constructor
    · intro h
      obtain ⟨row, base, priced⟩ := exists_priced_of_limitExceeded reached h
      obtain ⟨category, -, -, -, result⟩ := writeExpense_of_priced reached numbered regular priced
      rw [result] at h
      split at h
      · next short =>
        have room := Store.shortage_eq_limitExceeded.1 (Except.error.inj h)
        exact ⟨row, base, priced, short.1, short.2, room⟩
      · cases h
    · rintro ⟨row, base, priced, ofMonth, short, room⟩
      obtain ⟨category, -, -, -, result⟩ := writeExpense_of_priced reached numbered regular priced
      rw [result, if_pos ⟨ofMonth, short⟩, Store.shortage_eq_limitExceeded.2 room]
  written := by
    rintro ⟨reached, numbered⟩ after h
    obtain ⟨row, base, priced⟩ := exists_priced_of_ok reached h
    obtain ⟨category, member, owner, name, result⟩ :=
      writeExpense_of_priced reached numbered regular priced
    refine ⟨row, base, priced, ?_⟩
    rw [result] at h
    split at h
    · cases h
    · cases h
      exact wrote_booked reached regular priced.user member owner name
  exempt := writeExpense_exempt
  inTurns := writeInTurns_one books request now
  refused := fun _ _ => Writing.books_of_step_refused
  booking := fun _ => step_of_changed

end Books
end ExpenseLedger
