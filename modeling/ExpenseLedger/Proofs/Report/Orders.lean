import ExpenseLedger.Proofs.Report.Grouping
import ExpenseLedger.Proofs.Report.Solvency
import ExpenseLedger.Proofs.Users.Changes
import ExpenseLedger.Proofs.Users.View

/-!
# Expenses in any order

Expenses that the limit covers all together are written in whatever order they come: each leaves enough
of the limit for those that are still to come (`Books.Affords.step`). What is left in the end is the
limit less all that was charged, and the rows of two orders are the same but for their numbers and for
where they stand, which no report can tell.
-/

namespace ExpenseLedger

/-! ## What a request comes to -/

namespace ExpenseRequest

/-- The amount in the reference currency at a rate; nothing, if it is out of range. -/
def baseAt (request : ExpenseRequest) (rate : Rate) : Int :=
  match Conversion.toBase request.amount.minor rate with
  | .ok base => base
  | .error _ => 0

/-- The expense as its user will see it. -/
def seenAt (request : ExpenseRequest) (rate : Rate) : SeenExpense :=
  { category := some (trim request.category), time := request.time.floor.seconds
    amount := request.baseAt rate }

/-- What a request takes off the limit of the month of an instant. -/
def charge (request : ExpenseRequest) (now : Instant) (rate : Rate) : Int :=
  if request.IsOfMonth now then request.baseAt rate else 0

/-- What requests take off the limit together. -/
def chargeOf (now : Instant) (rate : Rate) (requests : List ExpenseRequest) : Int :=
  (requests.map fun request => request.charge now rate).sum

variable {request : ExpenseRequest} {requests order : List ExpenseRequest} {now : Instant} {rate : Rate}

theorem toBase_of_baseAt_pos (pos : 0 < request.baseAt rate) :
    Conversion.toBase request.amount.minor rate = .ok (request.baseAt rate) := by
  unfold baseAt at pos ⊢
  split
  · assumption
  · next failed =>
    rw [failed] at pos
    cases pos

theorem charge_nonneg (pos : 0 < request.baseAt rate) : 0 ≤ request.charge now rate := by
  unfold charge
  split <;> omega

theorem chargeOf_cons (request : ExpenseRequest) (requests : List ExpenseRequest) :
    chargeOf now rate (request :: requests) =
      request.charge now rate + chargeOf now rate requests :=
  List.sum_cons

theorem chargeOf_nonneg (pos : ∀ request ∈ requests, 0 < request.baseAt rate) :
    0 ≤ chargeOf now rate requests := by
  refine List.sum_nonneg fun charge member => ?_
  obtain ⟨request, inRequests, rfl⟩ := List.mem_map.1 member
  exact charge_nonneg (pos request inRequests)

theorem chargeOf_perm (perm : order.Perm requests) :
    chargeOf now rate order = chargeOf now rate requests :=
  (perm.map _).sum_eq

end ExpenseRequest

/-! ## One request after the other -/

namespace Books

/-- Writes expenses one after the other, until one is refused. -/
def writeAll (books : Books) (now : Instant) (requests : List ExpenseRequest) : Outcome Books :=
  requests.foldlM (fun books request => books.writeExpense request now) books

/-- Requests of a user that can all be written: each has a positive amount, an existing category and a
positive converted amount, and the limit covers all together that are dated in the month. All tables can
be reached, there are numbers for the rows, and the rate of the user is usable. -/
structure Affords (books : Books) (row : User) (rate : Rate) (now : Instant)
    (requests : List ExpenseRequest) : Prop where
  reached : books.store.outOfReach = []
  numbers : Store.NumbersLeft books.store.nextExpense requests.length
  found : books.store.user? row.id = some row
  rated : books.store.rate row.currency = .ok rate
  own : ∀ request ∈ requests, request.user = row.id
  positive : ∀ request ∈ requests, 0 < request.amount.minor
  filed : ∀ request ∈ requests, ∃ category ∈ books.store.categories,
    category.user = row.id ∧ category.name = trim request.category
  base_pos : ∀ request ∈ requests, 0 < request.baseAt rate
  covered : ExpenseRequest.chargeOf now rate requests ≤ row.currentLimit

namespace Affords

variable {books : Books} {row : User} {rate : Rate} {now : Instant} {request : ExpenseRequest}
  {requests order : List ExpenseRequest}

theorem perm (affords : books.Affords row rate now requests) (perm : order.Perm requests) :
    books.Affords row rate now order where
  reached := affords.reached
  numbers := perm.length_eq ▸ affords.numbers
  found := affords.found
  rated := affords.rated
  own := fun request member => affords.own request (perm.mem_iff.1 member)
  positive := fun request member => affords.positive request (perm.mem_iff.1 member)
  filed := fun request member => affords.filed request (perm.mem_iff.1 member)
  base_pos := fun request member => affords.base_pos request (perm.mem_iff.1 member)
  covered := (ExpenseRequest.chargeOf_perm perm).trans_le affords.covered

theorem priced (affords : books.Affords row rate now requests) (member : request ∈ requests) :
    request.Priced books.store row (request.baseAt rate) where
  positive := affords.positive request member
  user := affords.own request member ▸ affords.found
  category := affords.own request member ▸ affords.filed request member
  converted := by
    obtain ⟨currency, known, made⟩ := Store.exists_row_of_rate affords.rated
    exact ⟨currency, rate, known, made,
      ExpenseRequest.toBase_of_baseAt_pos (affords.base_pos request member)⟩
  base_pos := affords.base_pos request member

/-! ## One step -/

section Step

variable {category : Category}

/-- The tables after a request has been booked under a category. -/
theorem booked_eq (request : ExpenseRequest) (now : Instant) (store : Store) (row : User)
    (category base : Int) :
    request.booked now store row category base =
      Store.withExpense { store with users := (request.booked now store row category base).users }
        (store.nextExpenseRow { user := request.user, category, time := request.time, amount := base }) :=
  rfl

theorem user?_booked (found : books.store.user? row.id = some row) :
    (request.booked now books.store row category.id (request.baseAt rate)).user? row.id =
      some (Store.charged row (request.charge now rate)) := by
  unfold ExpenseRequest.charge
  by_cases ofMonth : request.IsOfMonth now
  · have users : (request.booked now books.store row category.id (request.baseAt rate)).users =
        (books.store.putUser (Store.charged row (request.baseAt rate))).users := if_pos ofMonth
    unfold Store.user?
    rw [users, if_pos ofMonth]
    exact Store.user?_putUser_self books.store (Store.charged row (request.baseAt rate))
  · have users : (request.booked now books.store row category.id (request.baseAt rate)).users =
        books.store.users := if_neg ofMonth
    unfold Store.user?
    rw [users, if_neg ofMonth]
    show _ = some { row with currentLimit := row.currentLimit - 0 }
    rw [Int.sub_zero]
    exact found

theorem regular_booked (regular : books.Regular) (found : books.store.user? row.id = some row)
    (covered : request.charge now rate ≤ row.currentLimit) (pos : 0 < request.baseAt rate) :
    Books.Regular { books with
      store := request.booked now books.store row category.id (request.baseAt rate) } := by
  have limited := regular.limited found
  unfold ExpenseRequest.charge at covered
  by_cases ofMonth : request.IsOfMonth now
  · rw [if_pos ofMonth] at covered
    have charged : (Store.charged row (request.baseAt rate)).Limited := by
      refine ⟨limited.defaultLimit, ?_⟩
      have upper := limited.currentLimit.2
      show FitsInt64 (row.currentLimit - request.baseAt rate)
      unfold FitsInt64 minInt64
      omega
    exact (regular.putUser charged).of_same (if_pos ofMonth) rfl rfl
  · exact regular.of_same (if_neg ofMonth) rfl rfl

theorem sound_booked (sound : books.store.Sound) (member : category ∈ books.store.categories)
    (owner : category.user = request.user) :
    (request.booked now books.store row category.id (request.baseAt rate)).Sound := by
  rw [booked_eq]
  have same : Store.SameEntries books.store { books.store with
      users := (request.booked now books.store row category.id (request.baseAt rate)).users } :=
    ⟨rfl, rfl, rfl, rfl⟩
  exact (sound.of_same same).withExpense rfl ⟨category, member, rfl, owner⟩

/-- The expense is seen after those that were there. -/
theorem expenses_booked (sound : books.store.Sound) (member : category ∈ books.store.categories)
    (own : request.user = row.id) (name : category.name = trim request.category) (time : Int) :
    ((request.booked now books.store row category.id (request.baseAt rate)).viewOf row.id
        time).expenses =
      (books.store.viewOf row.id time).expenses ++ [request.seenAt rate] := by
  have found : books.store.category? category.id = some category :=
    sound.ascending.get?_of_mem member
  have named : books.store.categoryName? category.id = some (trim request.category) := by
    unfold Store.categoryName?
    rw [found, Option.map_some, name]
  have seen : request.seenAt rate = books.store.seen (books.store.nextExpenseRow
      { user := request.user, category := category.id, time := request.time
        amount := request.baseAt rate }) := by
    unfold ExpenseRequest.seenAt
    rw [← named]
    rfl
  rw [seen, booked_eq, ← own]
  exact congrArg UserView.expenses (Store.viewOf_withExpense_self { books.store with
    users := (request.booked now books.store row category.id (request.baseAt rate)).users } _ time)

/-- The limit that is left covers the requests that are still to come. -/
theorem covered_cons (affords : books.Affords row rate now (request :: requests)) :
    request.charge now rate ≤ row.currentLimit ∧
      ExpenseRequest.chargeOf now rate requests ≤ row.currentLimit - request.charge now rate := by
  have rest_nonneg : 0 ≤ ExpenseRequest.chargeOf now rate requests :=
    ExpenseRequest.chargeOf_nonneg fun other member =>
      affords.base_pos other (List.mem_cons_of_mem _ member)
  have covered := affords.covered
  rw [ExpenseRequest.chargeOf_cons] at covered
  exact ⟨by omega, by omega⟩

/-- Once the first request is booked the others can still be written. -/
theorem booked (affords : books.Affords row rate now (request :: requests)) {after : Books}
    {cachedReports : List CachedReport}
    (stored : after.store = { request.booked now books.store row category.id (request.baseAt rate) with
      cachedReports }) :
    after.Affords (Store.charged row (request.charge now rate)) rate now requests := by
  have tail {p : ExpenseRequest → Prop} (all : ∀ other ∈ request :: requests, p other) :
      ∀ other ∈ requests, p other := (List.forall_mem_cons.1 all).2
  have charged : (request.booked now books.store row category.id (request.baseAt rate)).user? row.id =
      some (Store.charged row (request.charge now rate)) := user?_booked affords.found
  constructor
  case reached => exact stored ▸ affords.reached
  case numbers => exact stored ▸ affords.numbers.succ
  case found => exact stored ▸ charged
  case rated => exact stored ▸ affords.rated
  case own => exact tail affords.own
  case positive => exact tail affords.positive
  case filed => exact stored ▸ tail affords.filed
  case base_pos => exact tail affords.base_pos
  case covered => exact affords.covered_cons.2

end Step

/-- A request that is covered along with others is written, and leaves enough for the others. -/
theorem step (affords : books.Affords row rate now (request :: requests)) (regular : books.Regular)
    (sound : books.store.Sound) (time : Int) :
    ∃ after, books.writeExpense request now = .ok after ∧ after.Regular ∧ after.store.Sound ∧
      after.Affords (Store.charged row (request.charge now rate)) rate now requests ∧
      (after.store.viewOf row.id time).expenses =
        (books.store.viewOf row.id time).expenses ++ [request.seenAt rate] := by
  have first : request ∈ request :: requests := List.mem_cons_self
  have pos := affords.base_pos request first
  have own := affords.own request first
  have covered := affords.covered_cons.1
  obtain ⟨category, member, owner, name, result⟩ := @writeExpense_of_priced _ _ now
    affords.reached affords.numbers.fits regular _ _ (affords.priced first)
  have enough : ¬(request.IsOfMonth now ∧ row.currentLimit < request.baseAt rate) := by
    rintro ⟨ofMonth, short⟩
    unfold ExpenseRequest.charge at covered
    rw [if_pos ofMonth] at covered
    omega
  rw [if_neg enough] at result
  refine ⟨_, result, ?_⟩
  let left : Books := { books with
    store := request.booked now books.store row category.id (request.baseAt rate) }
  obtain ⟨cachedReports, dropped⟩ := left.invalidate_store request.user
  have same := left.sameRows_invalidate request.user
  refine ⟨(regular_booked regular affords.found covered pos).invalidate request.user,
    (sound_booked sound member owner).of_same same.toSameEntries, affords.booked dropped, ?_⟩
  show ((left.invalidate request.user).store.viewOf row.id time).expenses = _
  have seen : (left.store.viewOf row.id time).expenses = _ :=
    expenses_booked sound member own name time
  rw [dropped]
  exact seen

/-! ## The whole list -/

/-- Requests that the limit covers together are all written, and what they come to is missing from the
limit afterwards. -/
theorem run (affords : books.Affords row rate now requests) (regular : books.Regular)
    (sound : books.store.Sound) (time : Int) :
    ∃ after, books.writeAll now requests = .ok after ∧ after.store.Sound ∧
      after.Affords (Store.charged row (ExpenseRequest.chargeOf now rate requests)) rate now [] ∧
      (after.store.viewOf row.id time).expenses =
        (books.store.viewOf row.id time).expenses ++ requests.map fun request => request.seenAt rate := by
  induction requests generalizing books row with
  | nil =>
    have none : Store.charged row (ExpenseRequest.chargeOf now rate []) = row := by
      show { row with currentLimit := row.currentLimit - 0 } = row
      rw [Int.sub_zero]
    refine ⟨books, rfl, sound, ?_, (List.append_nil _).symm⟩
    rw [none]
    exact affords
  | cons request requests ih =>
    obtain ⟨middle, written, regular', sound', affords', seen⟩ := affords.step regular sound time
    obtain ⟨after, rest, sound'', done, seen'⟩ := ih affords' regular' sound'
    have both : Store.charged (Store.charged row (request.charge now rate))
        (ExpenseRequest.chargeOf now rate requests) =
          Store.charged row (ExpenseRequest.chargeOf now rate (request :: requests)) := by
      unfold Store.charged
      rw [ExpenseRequest.chargeOf_cons, Int.sub_sub]
    refine ⟨after, ?_, sound'', both ▸ done, ?_⟩
    · unfold writeAll
      rw [List.foldlM_cons]
      exact Outcome.bind_eq_ok.2 ⟨middle, written, rest⟩
    · rw [List.map_cons, List.append_cons, ← seen]
      exact seen'

theorem rateOf (affords : books.Affords row rate now requests) :
    books.store.rateOf row.id = .ok rate :=
  Outcome.bind_eq_ok.2 ⟨row, Store.user_eq_ok.2
    ⟨Store.reaches_of_outOfReach affords.reached _, affords.found⟩, affords.rated⟩

end Affords
end Books

/-! ## Reports cannot tell -/

/-- The same report, or a failed conversion both times. -/
inductive Report.SameOutcome : Outcome Report → Outcome Report → Prop
  | made (report : Report) : SameOutcome (.ok report) (.ok report)
  | failed (fault fault' : ConversionFault) :
      SameOutcome (.error (.conversionFailure fault)) (.error (.conversionFailure fault'))

theorem Report.sameOutcome_of_perm {rows rows' : List ExpenseRow} (rate : Rate)
    (nonneg : ∀ row ∈ rows, 0 ≤ row.amount)
    (perm : (rows.map ExpenseRow.share).Perm (rows'.map ExpenseRow.share)) :
    SameOutcome (aggregate rows rate) (aggregate rows' rate) := by
  cases summed : aggregate rows rate with
  | ok report =>
    rw [aggregate_perm nonneg perm summed]
    exact .made report
  | error e =>
    obtain ⟨fault, rfl⟩ := aggregate_error summed
    cases summed' : aggregate rows' rate with
    | ok report =>
      rw [aggregate_perm (nonneg_of_perm nonneg perm) perm.symm summed'] at summed
      cases summed
    | error e' =>
      obtain ⟨fault', rfl⟩ := aggregate_error summed'
      exact .failed fault fault'

theorem ExpenseRow.share_perm {rows rows' : List ExpenseRow}
    (perm : (rows.map ExpenseRow.seen).Perm (rows'.map ExpenseRow.seen)) :
    (rows.map ExpenseRow.share).Perm (rows'.map ExpenseRow.share) := by
  have shares (rows : List ExpenseRow) : rows.map ExpenseRow.share =
      (rows.map ExpenseRow.seen).map fun seen => (seen.category.getD "", seen.amount) := by
    rw [List.map_map]
    rfl
  rw [shares rows, shares rows']
  exact perm.map _

/-- Tables in which a user sees the same expenses, in whatever order, make the same report of it. -/
theorem Store.sameOutcome_of_perm {store store' : Store} {user time : Int} {rate : Rate}
    (sound : store.Sound) (sound' : store'.Sound)
    (reached : store.outOfReach = []) (reached' : store'.outOfReach = [])
    (rated : store.rateOf user = .ok rate) (rated' : store'.rateOf user = .ok rate)
    (nonneg : ∀ seen ∈ (store.viewOf user time).expenses, 0 ≤ seen.amount)
    (perm : (store.viewOf user time).expenses.Perm (store'.viewOf user time).expenses)
    (since : Instant) :
    Report.SameOutcome (store.reportOf user since) (store'.reportOf user since) := by
  rw [reportOf_of_rated rated (reaches_of_outOfReach reached _),
    reportOf_of_rated rated' (reaches_of_outOfReach reached' _)]
  refine Report.sameOutcome_of_perm rate (fun row member => ?_) (ExpenseRow.share_perm ?_)
  · have seen : row.seen ∈ (store.expenseRows user since.seconds).map ExpenseRow.seen :=
      List.mem_map_of_mem member
    rw [map_seen_expenseRows sound user since.seconds time] at seen
    exact nonneg row.seen (List.mem_filter.1 (List.mem_mergeSort.1 seen)).1
  · rw [map_seen_expenseRows sound user since.seconds time,
      map_seen_expenseRows sound' user since.seconds time]
    exact (List.mergeSort_perm _ _).trans ((perm.filter _).trans (List.mergeSort_perm _ _).symm)

namespace Books

theorem Solvent.seen_nonneg {books : Books} (solvent : books.Solvent) (user time : Int) :
    ∀ seen ∈ (books.store.viewOf user time).expenses, 0 ≤ seen.amount := by
  intro seen member
  obtain ⟨expense, chosen, rfl⟩ := List.mem_map.1 member
  exact Int.le_of_lt (solvent.positive expense (List.mem_filter.1 chosen).1)

/-- In whatever order requests are written that the limit covers together, all of them are, with the same
limit left and the same reports to be made. -/
structure WritesInAnyOrder (books : Books) (row : User) (rate : Rate) (now : Instant)
    (requests : List ExpenseRequest) : Prop where
  accepted : ∀ order : List ExpenseRequest, order.Perm requests →
    ∃ after, books.writeAll now order = .ok after ∧
      after.store.user? row.id =
        some { row with currentLimit := row.currentLimit -
          ExpenseRequest.chargeOf now rate requests }
  reports : ∀ (order order' : List ExpenseRequest) (after after' : Books), order.Perm requests →
    order'.Perm requests → books.writeAll now order = .ok after →
    books.writeAll now order' = .ok after' →
    ∀ since, Report.SameOutcome (after.store.reportOf row.id since)
      (after'.store.reportOf row.id since)

theorem Solvent.writesInAnyOrder {books : Books} (solvent : books.Solvent) {row : User} {rate : Rate}
    {now : Instant} {requests : List ExpenseRequest}
    (affords : books.Affords row rate now requests) :
    books.WritesInAnyOrder row rate now requests where
  accepted := by
    intro order perm
    obtain ⟨after, written, -, done, -⟩ :=
      (affords.perm perm).run solvent.toRegular solvent.sound 0
    rw [ExpenseRequest.chargeOf_perm perm] at done
    exact ⟨after, written, done.found⟩
  reports := by
    intro order order' after after' perm perm' written written' since
    obtain ⟨_, again, sound, done, seen⟩ :=
      (affords.perm perm).run solvent.toRegular solvent.sound 0
    obtain rfl := Except.ok.inj (written.symm.trans again)
    obtain ⟨_, again', sound', done', seen'⟩ :=
      (affords.perm perm').run solvent.toRegular solvent.sound 0
    obtain rfl := Except.ok.inj (written'.symm.trans again')
    have nonneg : ∀ one ∈ (after.store.viewOf row.id 0).expenses, 0 ≤ one.amount := by
      intro one member
      rw [seen] at member
      rcases List.mem_append.1 member with old | new
      · exact solvent.seen_nonneg row.id 0 one old
      · obtain ⟨request, inOrder, rfl⟩ := List.mem_map.1 new
        exact Int.le_of_lt (affords.base_pos request (perm.mem_iff.1 inOrder))
    refine Store.sameOutcome_of_perm sound sound' done.reached done'.reached done.rateOf
      done'.rateOf nonneg ?_ since
    show (after.store.viewOf row.id 0).expenses.Perm (after'.store.viewOf row.id 0).expenses
    rw [seen, seen']
    exact ((perm.trans perm'.symm).map _).append_left _

end Books

/-- Wherever writers, report calls and workers have come to, expenses of a user that its limit covers all
together are accepted in every order, and every order leaves the same limit and the same reports. -/
theorem affordable_expenses_in_any_order {limit : Int} (limit_pos : 0 < limit)
    (fits : FitsInt64 limit) {desk : Desk} (vacant : desk.books.Vacant) (settings : ReportSettings)
    (actions : List ReportAction) {row : User} {rate : Rate} {now : Instant}
    {requests : List ExpenseRequest}
    (affords : (ReportRun.ofActions settings limit desk actions).world.desk.books.Affords row rate now
      requests) :
    (ReportRun.ofActions settings limit desk actions).world.desk.books.WritesInAnyOrder row rate now
      requests :=
  (ReportRun.solvent_ofActions settings limit_pos fits vacant actions).writesInAnyOrder affords

/-- Two expenses of the month of the epoch and one of the year before, more than the limit. -/
def threeExpenses : List ExpenseRequest :=
  [{ user := 1, category := "food", amount := ⟨30⟩, time := .epoch },
    { user := 1, category := " food ", amount := ⟨10⟩, time := .ofSeconds 86400 },
    { user := 1, category := "food", amount := ⟨500⟩, time := .ofSeconds (-86400) }]

/-- Forty are left of the limit, and go to the two expenses of the month whichever comes first. -/
theorem affordable_expenses_in_any_order_three :
    0 < (100 : Int) ∧ FitsInt64 100 ∧ newDesk.books.Vacant ∧
      let books := (ReportRun.ofActions sharedSettings 100 newDesk oneReport).world.desk.books
      let row : User := { id := 1, currency := 0, defaultLimit := 100, currentLimit := 40 }
      books.Affords row .one .epoch threeExpenses ∧
      ∃ after after', books.writeAll .epoch threeExpenses = .ok after ∧
        books.writeAll .epoch threeExpenses.reverse = .ok after' ∧
        after.store.user? 1 = some { row with currentLimit := 0 } ∧
        after'.store.user? 1 = some { row with currentLimit := 0 } ∧
        ∀ since, Report.SameOutcome (after.store.reportOf 1 since) (after'.store.reportOf 1 since) := by
  have fits : FitsInt64 100 := by decide
  have vacant : newDesk.books.Vacant := ⟨rfl, rfl, rfl, rfl, nofun⟩
  let row : User := { id := 1, currency := 0, defaultLimit := 100, currentLimit := 40 }
  have affords : (ReportRun.ofActions sharedSettings 100 newDesk oneReport).world.desk.books.Affords
      row .one .epoch threeExpenses := by
    constructor
    case reached => decide +kernel
    case numbers => exact ⟨by decide +kernel, by decide +kernel⟩
    case found => decide +kernel
    case rated => decide +kernel
    case own => decide
    case positive => decide
    case filed => decide +kernel
    case base_pos => decide
    case covered => decide
  obtain ⟨accepted, reports⟩ := affordable_expenses_in_any_order (by decide : 0 < (100 : Int)) fits vacant
    sharedSettings oneReport affords
  obtain ⟨after, written, found⟩ := accepted threeExpenses (.refl _)
  obtain ⟨after', written', found'⟩ := accepted threeExpenses.reverse (List.reverse_perm _)
  have spent : ExpenseRequest.chargeOf .epoch .one threeExpenses = 40 := by decide
  rw [spent] at found found'
  exact ⟨by decide, fits, vacant, affords, after, after', written, written', found, found',
    reports _ _ after after' (.refl _) (List.reverse_perm _) written written'⟩

end ExpenseLedger
