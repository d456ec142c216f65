import ExpenseLedger.Proofs.Users.Alike

/-!
# Commands of a user on books that look alike

A command on the books of a user makes the user's own changes (`BookCommand.ChangesOnlyFor`) and
respects what the user sees (`BookCommand.Respects`). Both are properties of how commands are put
together: of the change that a command makes, and of what it then tells from the books.
-/

namespace ExpenseLedger

/-- Books whose tables look alike to a user. -/
structure Books.Alike (user now : Int) (books other : Books) : Prop where
  shared : books.cache = .shared
  shared' : other.cache = .shared
  store : Store.Alike user now books.store other.store

/-- The same result, and books that look alike. -/
def Books.AlikeWith {α : Type} (user now : Int) (x y : α × Books) : Prop :=
  y.1 = x.1 ∧ Alike user now x.2 y.2

namespace ExpenseRequest

variable {request : ExpenseRequest} {now : Int} {store other : Store}

theorem readUser_eq (alike : Store.Alike request.user now store other) :
    request.readUser other = request.readUser store := by
  unfold readUser
  rw [alike.user_eq]

theorem price_eq {user : Int} (alike : Store.Alike user now store other) (currency : Int) :
    request.price currency other = request.price currency store := by
  unfold price
  rw [alike.toBase_eq]

/-- The category is found in both, under the name that was asked for. -/
theorem readCategory_agree (alike : Store.Alike request.user now store other)
    (able : store.Able) (able' : other.Able) :
    Outcome.Agree
      (fun id id' => store.categoryName? id = some request.categoryName ∧
        other.categoryName? id' = some request.categoryName)
      (request.readCategory store) (request.readCategory other) := by
  have named := alike.isSome_categoryNamed?_eq request.categoryName
  unfold readCategory Store.categoryId
  rw [Store.reach_of_outOfReach alike.reached, Store.reach_of_outOfReach alike.reached']
  simp only [bind, Except.bind]
  cases found : store.categoryNamed? request.user request.categoryName <;>
    cases found' : other.categoryNamed? request.user request.categoryName <;>
      simp only [found, found'] at named ⊢
  · exact .error _
  · cases named
  · cases named
  · exact .ok ⟨Store.categoryName?_of_named able.sound found,
      Store.categoryName?_of_named able'.sound found'⟩

theorem record_agree (alike : Store.Alike request.user now store other)
    (able : store.Able) (able' : other.Able) (present : Instant) {category category' : Int}
    {name : String} (named : store.categoryName? category = some name)
    (named' : other.categoryName? category' = some name) (base : Int) :
    Outcome.Agree (Store.Alike request.user now) (request.record present category base store)
      (request.record present category' base other) :=
  alike.insertExpense able able' rfl named named' _

end ExpenseRequest

/-! ## Changes of the books -/

namespace Books.Alike

variable {user now : Int} {books other : Books} (alike : Alike user now books other)

include alike

theorem invalidate : Alike user now (books.invalidate user) (other.invalidate user) := by
  rw [Books.invalidate_eq alike.shared alike.store.reached,
    Books.invalidate_eq alike.shared' alike.store.reached']
  exact ⟨alike.shared, alike.shared', alike.store.withoutReports⟩

theorem withStore {change change' : Store → Outcome Store}
    (agree : Outcome.Agree (Store.Alike user now) (change books.store) (change' other.store)) :
    Outcome.Agree (Alike user now) (books.withStore change) (other.withStore change') :=
  agree.bind fun _ _ store => .ok ⟨alike.shared, alike.shared', store⟩

theorem addUser (limit : Int) :
    Outcome.Agree (AlikeWith user now) (books.addUser user limit) (other.addUser user limit) :=
  (alike.store.addUser limit).bind fun _ _ ⟨same, store⟩ =>
    .ok ⟨same, alike.shared, alike.shared', store⟩

theorem resetUser :
    Outcome.Agree (Alike user now) (books.resetUser user) (other.resetUser user) :=
  (alike.withStore alike.store.deleteUser).bind fun _ _ left => .ok left.invalidate

theorem addCategory (able : books.store.Able) (able' : other.store.Able) (name : String) :
    Outcome.Agree (AlikeWith user now) (books.addCategory user name)
      (other.addCategory user name) :=
  (alike.store.addCategory able able' (trim name)).bind fun _ _ ⟨same, store⟩ =>
    .ok ⟨same, alike.shared, alike.shared', store⟩

theorem setLimit (amount : Amount) :
    Outcome.Agree (Alike user now) (books.setLimit user amount) (other.setLimit user amount) := by
  unfold Books.setLimit
  split
  · exact .error _
  · refine .bind_of_eq alike.store.user_eq.symm fun row => ?_
    refine .bind_of_eq (alike.store.toBase_eq _ _).symm fun base => ?_
    split
    · exact .error _
    · exact alike.withStore (alike.store.setLimit base)

theorem resetLimit :
    Outcome.Agree (Alike user now) (books.resetLimit user) (other.resetLimit user) :=
  alike.withStore alike.store.resetLimit

theorem changeCurrency (code : String) :
    Outcome.Agree (AlikeWith user now) (books.changeCurrency user code)
      (other.changeCurrency user code) := by
  refine .bind_of_eq (alike.store.currencyOfCode_eq code).symm fun currency => ?_
  exact (alike.withStore (alike.store.setCurrency currency.id)).bind fun _ _ left =>
    .ok ⟨rfl, left.invalidate⟩

theorem limitStatus_eq : other.limitStatus user = books.limitStatus user := by
  unfold Books.limitStatus
  simp only [alike.store.user_eq, alike.store.currency_eq, alike.store.rate_eq]

end Books.Alike

theorem Books.Alike.writeExpense {request : ExpenseRequest} {now : Int} {books other : Books}
    (alike : Alike request.user now books other) (able : books.store.Able)
    (able' : other.store.Able) (present : Instant) :
    Outcome.Agree (Alike request.user now) (books.writeExpense request present)
      (other.writeExpense request present) := by
  refine .bind_of_eq (ExpenseRequest.readUser_eq alike.store).symm fun currency => ?_
  refine (ExpenseRequest.readCategory_agree alike.store able able').bind fun id id' named => ?_
  refine .bind_of_eq (ExpenseRequest.price_eq alike.store currency).symm fun base => ?_
  refine (alike.withStore (ExpenseRequest.record_agree alike.store able able' present named.1
    named.2 base)).bind fun _ _ left => ?_
  exact .ok left.invalidate

/-! ## Commands -/

namespace BookCommand

/-- The command makes changes that are those of a user. -/
def ChangesOnlyFor (user now : Int) (command : BookCommand) : Prop :=
  ∀ books : Books, books.Open → books.store.ChangesOnce user now (command books).2.store

/-- On books that look alike to a user the command has the same result, and it leaves books that
look alike. -/
def Respects (user now : Int) (command : BookCommand) : Prop :=
  ∀ books other : Books, Books.Alike user now books other → books.store.Able →
    other.store.Able → Books.AlikeWith user now (command books) (command other)

section Forms

variable {user now : Int} {α : Type} {change : Books → Outcome (α × Books)}
  {tell : α → Books → Outcome Output}

theorem changesOnlyFor_after
    (changes : ∀ books a after, books.Open → change books = .ok (a, after) →
      books.store.ChangesOnce user now after.store) :
    (after change tell).ChangesOnlyFor user now := by
  intro books opened
  unfold after
  cases changed : change books with
  | error e => exact ⟨0, Nat.zero_le 1, .nothing⟩
  | ok result => exact changes books result.1 result.2 opened changed

theorem changesOnlyFor_afterChange {change : Books → Outcome Books}
    {tell : Books → Outcome Output}
    (changes : ∀ books after, books.Open → change books = .ok after →
      books.store.ChangesOnce user now after.store) :
    (afterChange change tell).ChangesOnlyFor user now := by
  refine changesOnlyFor_after fun books u after opened h => ?_
  cases changed : change books with
  | error e =>
    rw [changed] at h
    cases h
  | ok left =>
    rw [changed] at h
    obtain rfl : left = after := congrArg Prod.snd (Except.ok.inj h)
    exact changes books left opened changed

theorem respects_after
    (changes : ∀ books other, Books.Alike user now books other → books.store.Able →
      other.store.Able → Outcome.Agree (Books.AlikeWith user now) (change books) (change other))
    (tells : ∀ a books other, Books.Alike user now books other → tell a other = tell a books) :
    (after change tell).Respects user now := by
  intro books other alike able able'
  have agree := changes books other alike able able'
  unfold after
  cases changed : change books <;> cases changed' : change other <;>
    rw [changed, changed'] at agree <;> cases agree
  · exact ⟨rfl, alike⟩
  · next x y h =>
    obtain ⟨same, left⟩ := h
    refine ⟨?_, left⟩
    show tell y.1 y.2 = tell x.1 x.2
    rw [same, tells _ _ _ left]

theorem respects_afterChange {change : Books → Outcome Books} {tell : Books → Outcome Output}
    (changes : ∀ books other, Books.Alike user now books other → books.store.Able →
      other.store.Able → Outcome.Agree (Books.Alike user now) (change books) (change other))
    (tells : ∀ books other, Books.Alike user now books other → tell other = tell books) :
    (afterChange change tell).Respects user now :=
  respects_after
    (fun books other alike able able' =>
      (changes books other alike able able').map fun _ _ left => ⟨rfl, left⟩)
    fun _ => tells

end Forms

/-! ### Each command -/

section Each

variable (user now : Int)

theorem tellLimits_eq {message : LimitStatus → String} (books other : Books)
    (alike : Books.Alike user now books other) :
    tellLimits user message other = tellLimits user message books := by
  unfold tellLimits
  rw [alike.limitStatus_eq]

theorem changesOnlyFor_userAdd (limit : Int) : (userAdd limit user).ChangesOnlyFor user now :=
  changesOnlyFor_after fun _ _ _ _ => Books.addUser_changes

theorem respects_userAdd (limit : Int) : (userAdd limit user).Respects user now :=
  respects_after (fun _ _ alike _ _ => alike.addUser limit) fun _ _ _ _ => rfl

theorem changesOnlyFor_userReset : (userReset user).ChangesOnlyFor user now :=
  changesOnlyFor_afterChange fun _ _ => Books.resetUser_changes

theorem respects_userReset : (userReset user).Respects user now :=
  respects_afterChange (fun _ _ alike _ _ => alike.resetUser) fun _ _ _ => rfl

theorem changesOnlyFor_categoryAdd (name : String) :
    (categoryAdd user name).ChangesOnlyFor user now :=
  changesOnlyFor_after fun _ _ _ _ => Books.addCategory_changes

theorem respects_categoryAdd (name : String) : (categoryAdd user name).Respects user now :=
  respects_after (fun _ _ alike able able' => alike.addCategory able able' name) fun _ _ _ _ => rfl

theorem changesOnlyFor_expenseAdd (request : ExpenseRequest) (present : Instant) :
    (expenseAdd request present).ChangesOnlyFor request.user now :=
  changesOnlyFor_afterChange fun _ _ opened h => Books.writeExpense_changes opened h

theorem respects_expenseAdd (request : ExpenseRequest) (present : Instant) :
    (expenseAdd request present).Respects request.user now :=
  respects_afterChange (fun _ _ alike able able' => alike.writeExpense able able' present)
    (tellLimits_eq request.user now)

theorem changesOnlyFor_limitShow : (limitShow user).ChangesOnlyFor user now :=
  fun _ _ => ⟨0, Nat.zero_le 1, .nothing⟩

theorem respects_limitShow : (limitShow user).Respects user now :=
  fun books other alike _ _ => ⟨tellLimits_eq user now books other alike, alike⟩

theorem changesOnlyFor_limitSet (amount : Amount) :
    (limitSet user amount).ChangesOnlyFor user now :=
  changesOnlyFor_afterChange fun _ _ _ => Books.setLimit_changes

theorem respects_limitSet (amount : Amount) : (limitSet user amount).Respects user now :=
  respects_afterChange (fun _ _ alike _ _ => alike.setLimit amount) (tellLimits_eq user now)

theorem changesOnlyFor_limitReset : (limitReset user).ChangesOnlyFor user now :=
  changesOnlyFor_afterChange fun _ _ _ => Books.resetLimit_changes

theorem respects_limitReset : (limitReset user).Respects user now :=
  respects_afterChange (fun _ _ alike _ _ => alike.resetLimit) (tellLimits_eq user now)

theorem changesOnlyFor_currencySet (code : String) :
    (currencySet user code).ChangesOnlyFor user now :=
  changesOnlyFor_after fun _ _ _ opened h => Books.changeCurrency_changes opened h

theorem respects_currencySet (code : String) : (currencySet user code).Respects user now :=
  respects_after (fun _ _ alike _ _ => alike.changeCurrency code) fun _ _ _ _ => rfl

end Each
end BookCommand
end ExpenseLedger
