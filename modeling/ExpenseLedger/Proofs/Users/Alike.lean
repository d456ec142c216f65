import ExpenseLedger.Proofs.Users.Changes

/-!
# Tables that look alike to a user

Two sets of tables look alike to a user if it sees the same in both and the currencies are the same.
A command of the user then has the same result on both, and leaves tables that look alike again:
whatever it reads is read off the view, and the numbers of rows, which may differ, show nowhere.
-/

namespace ExpenseLedger

/-! ## Reading and changing tables -/

namespace Store

/-- The tables look alike to a user at a time. -/
structure Alike (user now : Int) (store other : Store) : Prop where
  reached : store.outOfReach = []
  reached' : other.outOfReach = []
  currencies : other.currencies = store.currencies
  view : other.viewOf user now = store.viewOf user now

/-- The same result, and tables that look alike. -/
def AlikeWith {α : Type} (user now : Int) (x y : α × Store) : Prop :=
  y.1 = x.1 ∧ Alike user now x.2 y.2

/-- Tables on which any one command can be carried out. -/
structure Able (store : Store) : Prop where
  sound : store.Sound
  ascending : Rows.Ascending CachedReport.key store.cachedReports
  room : store.RoomFor 1

theorem InOrder.able {store : Store} {process : Nat} (inOrder : store.InOrder process)
    (room : store.RoomFor 1) : store.Able :=
  ⟨inOrder.sound, inOrder.ascending, room⟩

theorem Able.putUser {store : Store} (able : store.Able) (row : User) :
    (store.putUser row).Able where
  sound := able.sound.of_same (sameEntries_putUser store row)
  ascending := able.ascending
  room := ⟨able.room.categories, able.room.expenses, able.room.messages⟩

namespace Alike

variable {user now : Int} {store other : Store}

section Reads

variable (alike : Alike user now store other)

include alike

theorem user?_eq : other.user? user = store.user? user :=
  congrArg UserView.user alike.view

theorem user_eq : other.user user = store.user user := by
  unfold Store.user
  rw [reach_of_outOfReach alike.reached, reach_of_outOfReach alike.reached', alike.user?_eq]

theorem currency?_eq (id : Int) : other.currency? id = store.currency? id := by
  unfold currency?
  rw [alike.currencies]

theorem currency_eq (id : Int) : other.currency id = store.currency id := by
  unfold currency
  rw [reach_of_outOfReach alike.reached, reach_of_outOfReach alike.reached', alike.currency?_eq]

theorem currencyOfCode_eq (code : String) :
    other.currencyOfCode code = store.currencyOfCode code := by
  unfold currencyOfCode
  rw [reach_of_outOfReach alike.reached, reach_of_outOfReach alike.reached', alike.currencies]

theorem rate_eq (id : Int) : other.rate id = store.rate id := by
  unfold rate
  rw [alike.currency_eq]

theorem toBase_eq (amount id : Int) : other.toBase amount id = store.toBase amount id := by
  unfold toBase
  rw [alike.rate_eq]

theorem rateOf_eq : other.rateOf user = store.rateOf user := by
  unfold rateOf
  simp only [alike.user_eq, alike.rate_eq]

theorem isSome_categoryNamed?_eq (name : String) :
    (other.categoryNamed? user name).isSome = (store.categoryNamed? user name).isSome := by
  rw [isSome_categoryNamed? other user now, isSome_categoryNamed? store user now, alike.view]

theorem aggregate_eq (sound : store.Sound) (sound' : other.Sound) (since : Int) (rate : Rate) :
    Report.aggregate (other.expenseRows user since) rate =
      Report.aggregate (store.expenseRows user since) rate := by
  apply Report.aggregate_congr
  rw [map_seen_expenseRows sound' user since now, map_seen_expenseRows sound user since now,
    alike.view]

/-- What the cache has for the user, and is still of use, is the same. -/
theorem liveReport_eq (able : store.Able) (able' : other.Able) (since : Instant) :
    (Rows.get? CachedReport.key other.cachedReports (CacheKey.key user since)).filter
        (fun row => decide (now < row.expiresAt)) =
      (Rows.get? CachedReport.key store.cachedReports (CacheKey.key user since)).filter
        fun row => decide (now < row.expiresAt) := by
  rw [← get?_reports able'.ascending, ← get?_reports able.ascending, alike.view]

theorem cachedReport_eq (able : store.Able) (able' : other.Able) (since : Instant) :
    other.cachedReport now user since = store.cachedReport now user since := by
  rw [cachedReport_eq_live alike.reached, cachedReport_eq_live alike.reached',
    alike.liveReport_eq able able']

theorem cacheRow_eq (able : store.Able) (able' : other.Able) (ttl : Nat) (since : Instant)
    (report : Report) :
    other.cacheRow now ttl user since report = store.cacheRow now ttl user since report := by
  have live := alike.liveReport_eq able able' since
  rw [← able'.ascending.get?_filter, ← able.ascending.get?_filter] at live
  unfold cacheRow
  simp only [live]

end Reads

/-! ### Changes -/

section Changes

variable (alike : Alike user now store other)

include alike

theorem later {time : Int} (h : now ≤ time) : Alike user time store other where
  reached := alike.reached
  reached' := alike.reached'
  currencies := alike.currencies
  view := by rw [viewOf_of_le h, viewOf_of_le h, alike.view]

theorem putUser {row : User} (own : row.id = user) :
    Alike user now (store.putUser row) (other.putUser row) where
  reached := alike.reached
  reached' := alike.reached'
  currencies := alike.currencies
  view := by
    subst own
    rw [viewOf_putUser_self, viewOf_putUser_self, alike.view]

theorem withoutUser : Alike user now (store.withoutUser user) (other.withoutUser user) where
  reached := alike.reached
  reached' := alike.reached'
  currencies := alike.currencies
  view := by rw [viewOf_withoutUser_self, viewOf_withoutUser_self, alike.view]

theorem withoutNextCategory :
    Alike user now store.withoutNextCategory other.withoutNextCategory :=
  ⟨alike.reached, alike.reached', alike.currencies, alike.view⟩

theorem withCategory (sound : store.Sound) (sound' : other.Sound) (name : String) :
    Alike user now (store.withCategory (store.nextCategoryRow user name))
      (other.withCategory (other.nextCategoryRow user name)) where
  reached := alike.reached
  reached' := alike.reached'
  currencies := alike.currencies
  view := by
    have view := viewOf_withCategory_self sound (store.nextCategoryRow user name) now
    have view' := viewOf_withCategory_self sound' (other.nextCategoryRow user name) now
    refine view'.trans (Eq.trans ?_ view.symm)
    show { other.viewOf user now with categories := (other.viewOf user now).categories ++ [name] } =
      { store.viewOf user now with categories := (store.viewOf user now).categories ++ [name] }
    rw [alike.view]

theorem withExpense {row row' : Expense} (own : row.user = user) (own' : row'.user = user)
    (same : other.seen row' = store.seen row) :
    Alike user now (store.withExpense row) (other.withExpense row') where
  reached := alike.reached
  reached' := alike.reached'
  currencies := alike.currencies
  view := by
    subst own
    have view' := viewOf_withExpense_self other row' now
    rw [own'] at view'
    rw [view', viewOf_withExpense_self, alike.view, same]

theorem withoutReports :
    Alike user now (store.withoutReports user) (other.withoutReports user) where
  reached := alike.reached
  reached' := alike.reached'
  currencies := alike.currencies
  view := by rw [viewOf_withoutReports_self, viewOf_withoutReports_self, alike.view]

theorem withReport (ascending : Rows.Ascending CachedReport.key store.cachedReports)
    (ascending' : Rows.Ascending CachedReport.key other.cachedReports) (row : CachedReport) :
    Alike user now (store.withReport now row) (other.withReport now row) where
  reached := alike.reached
  reached' := alike.reached'
  currencies := alike.currencies
  view := by
    rw [viewOf_withReport_self ascending', viewOf_withReport_self ascending, alike.view]

theorem withLimitsRestored :
    Alike user now store.withLimitsRestored other.withLimitsRestored where
  reached := alike.reached
  reached' := alike.reached'
  currencies := alike.currencies
  view := by rw [viewOf_withLimitsRestored, viewOf_withLimitsRestored, alike.view]

/-- Other currencies, the same in both. -/
theorem withCurrencies (currencies : List Currency) :
    Alike user now { store with currencies } { other with currencies } :=
  ⟨alike.reached, alike.reached', rfl, alike.view⟩

theorem served : Alike user now (ReportJob.served store) (ReportJob.served other) :=
  ⟨alike.reached, alike.reached', alike.currencies, alike.view⟩

end Changes

/-! ### Statements -/

section Statements

variable (alike : Alike user now store other)

include alike

theorem addUser (limit : Int) :
    Outcome.Agree (AlikeWith user now) (store.addUser user limit) (other.addUser user limit) := by
  unfold Store.addUser
  rw [reach_of_outOfReach alike.reached, reach_of_outOfReach alike.reached', alike.user?_eq,
    alike.currency?_eq]
  simp only [bind, Except.bind]
  cases store.user? user with
  | some row => exact .ok ⟨rfl, alike⟩
  | none =>
    cases store.currency? referenceCurrency with
    | none => exact .error _
    | some currency => exact .ok ⟨rfl, alike.putUser rfl⟩

theorem deleteUser :
    Outcome.Agree (Alike user now) (store.deleteUser user) (other.deleteUser user) := by
  unfold Store.deleteUser
  rw [reach_of_outOfReach alike.reached, reach_of_outOfReach alike.reached', alike.user?_eq]
  simp only [bind, Except.bind]
  cases store.user? user with
  | some row => exact .ok alike.withoutUser
  | none => exact .error _

/-- A change of the user's row that depends on the row alone. -/
theorem changeUser (statement : Statement) {change change' : User → Outcome User}
    (same : ∀ row, change' row = change row)
    (keeps : ∀ row row', change row = .ok row' → row'.id = row.id) :
    Outcome.Agree (fun x y => ∃ row, row.id = user ∧ x = store.putUser row ∧ y = other.putUser row)
      (store.changeUser statement user change) (other.changeUser statement user change') := by
  unfold Store.changeUser
  rw [reach_of_outOfReach alike.reached, reach_of_outOfReach alike.reached', alike.user?_eq]
  simp only [bind, Except.bind]
  cases found : store.user? user with
  | none => exact .error _
  | some row =>
    simp only [same]
    cases changed : change row with
    | error e => exact .error e
    | ok row' => exact .ok ⟨row', (keeps row row' changed).trans (user?_id found), rfl, rfl⟩

theorem of_putUser (x y : Store)
    (h : ∃ row : User, row.id = user ∧ x = store.putUser row ∧ y = other.putUser row) :
    Alike user now x y := by
  obtain ⟨row, own, rfl, rfl⟩ := h
  exact alike.putUser own

theorem setCurrency (currency : Int) :
    Outcome.Agree (Alike user now) (store.setCurrency user currency)
      (other.setCurrency user currency) := by
  refine (alike.changeUser _ (fun row => ?_) fun row row' changed => ?_).imp alike.of_putUser
  · rw [alike.currency?_eq]
  · cases found : store.currency? currency <;> simp only [found] at changed
    · cases changed
    · cases changed
      rfl

theorem setLimit (limit : Int) :
    Outcome.Agree (Alike user now) (store.setLimit user limit) (other.setLimit user limit) := by
  refine (alike.changeUser _ (fun _ => rfl) fun row row' changed => ?_).imp alike.of_putUser
  cases changed
  rfl

theorem resetLimit :
    Outcome.Agree (Alike user now) (store.resetLimit user) (other.resetLimit user) := by
  refine (alike.changeUser _ (fun _ => rfl) fun row row' changed => ?_).imp alike.of_putUser
  cases changed
  rfl

theorem charge (amount : Int) :
    Outcome.Agree (fun x y => ∃ row, row.id = user ∧ x = store.putUser row ∧ y = other.putUser row)
      (store.charge user amount) (other.charge user amount) := by
  refine alike.changeUser _ (fun _ => rfl) fun row row' changed => ?_
  dsimp only at changed
  split at changed
  · cases changed
  · split at changed
    · cases changed
    · cases changed
      rfl

theorem addCategory (able : store.Able) (able' : other.Able) (name : String) :
    Outcome.Agree (AlikeWith user now) (store.addCategory user name)
      (other.addCategory user name) := by
  have granted := grant_of_fits able.room.categories.fits .insertCategory
  have granted' := grant_of_fits able'.room.categories.fits .insertCategory
  have named := alike.isSome_categoryNamed?_eq name
  unfold Store.addCategory
  rw [reach_of_outOfReach alike.reached, reach_of_outOfReach alike.reached', granted, granted',
    alike.user?_eq]
  simp only [bind, Except.bind]
  cases found : store.categoryNamed? user name <;>
    cases found' : other.categoryNamed? user name <;> simp only [found, found'] at named ⊢
  · cases store.user? user with
    | none => exact .error _
    | some row => exact .ok ⟨rfl, alike.withCategory able.sound able'.sound name⟩
  · cases named
  · cases named
  · exact .ok ⟨rfl, alike.withoutNextCategory⟩

/-- Expenses under categories of one name, whatever the numbers of the categories. -/
theorem addExpense (able : store.Able) (able' : other.Able) {expense : NewExpense} {category : Int}
    {name : String} (own : expense.user = user)
    (named : store.categoryName? expense.category = some name)
    (named' : other.categoryName? category = some name) :
    Outcome.Agree (Alike user now) (store.addExpense expense)
      (other.addExpense { expense with category }) := by
  subst own
  have granted := grant_of_fits able.room.expenses.fits .insertExpense
  have granted' := grant_of_fits able'.room.expenses.fits .insertExpense
  obtain ⟨row, found, -⟩ := Option.map_eq_some_iff.1 named
  obtain ⟨row', found', -⟩ := Option.map_eq_some_iff.1 named'
  unfold Store.addExpense
  rw [reach_of_outOfReach alike.reached, reach_of_outOfReach alike.reached', granted, granted',
    alike.user?_eq]
  simp only [bind, Except.bind, found, found']
  cases store.user? expense.user with
  | none => exact .error _
  | some user =>
    refine .ok (alike.withExpense rfl rfl ?_)
    unfold seen
    simp only [named, named']

theorem insertExpense (able : store.Able) (able' : other.Able) {expense : NewExpense}
    {category : Int} {name : String} (own : expense.user = user)
    (named : store.categoryName? expense.category = some name)
    (named' : other.categoryName? category = some name) (enforce : Bool) :
    Outcome.Agree (Alike user now) (store.insertExpense expense enforce)
      (other.insertExpense { expense with category } enforce) := by
  cases enforce with
  | false => exact alike.addExpense able able' own named named'
  | true =>
    subst own
    refine (alike.charge expense.amount).bind fun charged charged' h => ?_
    obtain ⟨row, isRow, rfl, rfl⟩ := h
    exact (alike.putUser isRow).addExpense (able.putUser row) (able'.putUser row) rfl named named'

theorem storeRate (currency : Currency) :
    Outcome.Agree (Alike user now) (store.storeRate currency) (other.storeRate currency) := by
  have taken : other.codeTaken currency = store.codeTaken currency := by
    unfold codeTaken
    rw [alike.currencies]
  unfold Store.storeRate
  split
  · exact .error _
  · rw [reach_of_outOfReach alike.reached, reach_of_outOfReach alike.reached', taken,
      alike.currencies]
    simp only [bind, Except.bind]
    split
    · exact .error _
    · exact .ok (alike.withCurrencies _)

theorem storeRates (batch : List Currency) :
    Outcome.Agree (Alike user now) (store.storeRates batch) (other.storeRates batch) := by
  induction batch generalizing store other with
  | nil => exact .ok alike
  | cons currency batch ih =>
    exact (alike.storeRate currency).bind fun middle middle' left => ih left

/-- The same rates come from the same service. -/
theorem refresh (url : Url) (codes : List String) (peer : Http.Peer) :
    Outcome.Agree (AlikeWith user now) (ExchangeRates.refresh url codes peer store).1
        (ExchangeRates.refresh url codes peer other).1 ∧
      (ExchangeRates.refresh url codes peer other).2 =
        (ExchangeRates.refresh url codes peer store).2 := by
  unfold ExchangeRates.refresh
  cases codes with
  | nil => exact ⟨.error _, rfl⟩
  | cons reference others =>
    simp only
    split
    · exact ⟨.error _, rfl⟩
    · refine ⟨.bind_of_eq rfl fun rates => ?_, rfl⟩
      exact (alike.storeRates _).bind fun _ _ left => .ok ⟨rfl, left⟩

end Statements

end Alike
end Store
end ExpenseLedger
