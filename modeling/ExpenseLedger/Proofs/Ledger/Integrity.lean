import ExpenseLedger.Proofs.Ledger.Accounting
import ExpenseLedger.Proofs.Ledger.Errands

/-!
# References hold while everybody acts

Statements of operations and steps of writing expenses come in any order. Each of them changes the
tables only as `Store.Revises` lists, so the tables stay integral. A writing call looks its category
up long before it books: if its user goes meanwhile, the number that the call holds is spent, which
is never undone, not even by a user of the same id with a category of the same name. Such a call is
lost (`Writing.Lost`), and all that it still does is fail.
-/

namespace ExpenseLedger

/-! ## Calls that are lost -/

namespace Writing

/-- The category that the expense is going to be in, once it has been read. -/
def category? : Writing → Option Int
  | .categoryRead _ category | .priced category _ => some category
  | _ => none

/-- How many steps a call that has read its category is away from having booked. -/
def left : Writing → Nat
  | .categoryRead _ _ => 2
  | .priced _ _ => 1
  | _ => 0

/-- The call has failed, or its category is gone for good. -/
inductive Lost (store : Store) : Writing → Prop
  | categoryRead (currency category : Int) (spent : store.Spent category) :
      Lost store (.categoryRead currency category)
  | priced (category base : Int) (spent : store.Spent category) :
      Lost store (.priced category base)
  | failed (e : Error) : Lost store (.finished (.error e))

theorem left_le (stage : Writing) : stage.left ≤ 2 := by
  unfold left
  split <;> decide

theorem Lost.of_category? {store : Store} {stage : Writing} {category : Int}
    (read : stage.category? = some category) (spent : store.Spent category) :
    stage.Lost store := by
  cases stage with
  | categoryRead currency own =>
    cases read
    exact .categoryRead currency category spent
  | priced own base =>
    cases read
    exact .priced category base spent
  | begun => cases read
  | userRead currency => cases read
  | recorded => cases read
  | finished result => cases read

theorem Lost.mono {store after : Store} {stage : Writing} (lost : stage.Lost store)
    (revises : store.Revises after) : stage.Lost after := by
  cases lost with
  | categoryRead currency category spent => exact .categoryRead _ _ (revises.spent spent)
  | priced category base spent => exact .priced _ _ (revises.spent spent)
  | failed e => exact .failed e

/-- A call that is lost changes nothing any more, and gets closer to its error. -/
theorem Lost.step {books : Books} {stage : Writing} (lost : stage.Lost books.store)
    (request : ExpenseRequest) (now : Instant) :
    (stage.step request now books).2 = books ∧
      (stage.step request now books).1.Lost books.store ∧
      (stage.step request now books).1.left ≤ stage.left - 1 := by
  have effect := step_effect request now books stage
  generalize stage.step request now books = result at effect
  obtain ⟨next, after⟩ := result
  simp only at effect
  cases lost with
  | categoryRead currency category spent =>
    cases effect with
    | refused _ e unbooked => exact ⟨rfl, .failed e, Nat.zero_le _⟩
    | priced _ _ base positive fits => exact ⟨rfl, .priced category base spent, Nat.le_refl _⟩
  | priced category base spent =>
    cases effect with
    | refused _ e unbooked => exact ⟨rfl, .failed e, Nat.zero_le _⟩
    | recorded _ _ after booked =>
      -- Nothing is booked under a category that is not there.
      obtain ⟨-, -, ⟨row, found⟩, -⟩ := Store.insertExpense_eq_ok booked
      obtain ⟨inTable, same⟩ := Store.category?_eq_some found
      exact absurd same (spent.2 row inTable)
  | failed e =>
    cases effect with
    | refused _ e unbooked => exact ⟨rfl, .failed e, Nat.zero_le _⟩
    | ended result => exact ⟨rfl, .failed e, Nat.zero_le _⟩

end Writing

/-- The action is a step of the call at a place. -/
def TrafficAction.isStepOf (caller : Nat) : TrafficAction → Bool
  | .proceedWriting other => decide (other = caller)
  | _ => false

namespace Traffic

/-- The tables are integral, and whatever category a call has read is one of its user or gone. -/
structure Kept (traffic : Traffic) : Prop where
  integral : traffic.books.store.Integral
  faithful : ∀ call ∈ traffic.writings, call.Faithful traffic.books.store

variable {limit : Int} {traffic : Traffic}

/-! ## One action -/

/-- Whatever anybody does is a change that statements make. -/
theorem revises_step (limit : Int) (kept : traffic.Kept) (action : TrafficAction) :
    traffic.books.store.Revises (traffic.step limit action).books.store := by
  cases action with
  | begin op => exact .nothing
  | beginWriting request now => exact .nothing
  | outage tables => exact .elsewhere ⟨⟨rfl, rfl, rfl, rfl⟩, rfl, rfl, rfl⟩ rfl
  | proceed index =>
    cases found : traffic.errands[index]? with
    | none =>
      simp only [step, found]
      exact .nothing
    | some errand =>
      simp only [step, found]
      exact errand.step_revises limit traffic.books
  | proceedWriting caller =>
    cases found : traffic.writings[caller]? with
    | none =>
      simp only [step, found]
      exact .nothing
    | some call =>
      have held := kept.faithful call (List.mem_of_getElem? found)
      simp only [step, found]
      refine (Writing.step_effect call.request call.now traffic.books call.stage).revises ?_
      intro category base stage
      unfold WritingCall.Faithful at held
      rw [stage] at held
      exact held.1

/-- A call reads a category of its user, and then holds on to it. -/
theorem faithful_of_step (kept : traffic.Kept) {call : WritingCall}
    (member : call ∈ traffic.writings) :
    WritingCall.Faithful (call.stage.step call.request call.now traffic.books).2.store
      { call with stage := (call.stage.step call.request call.now traffic.books).1 } := by
  have held := kept.faithful call member
  have effect := Writing.step_effect call.request call.now traffic.books call.stage
  generalize call.stage.step call.request call.now traffic.books = result at effect
  obtain ⟨next, after⟩ := result
  simp only at effect
  unfold WritingCall.Faithful at held
  generalize call.stage = first at effect held
  cases effect with
  | categoryRead currency row named =>
    exact Store.Files.of_named kept.integral.toSound named
  | priced currency category base positive fits => exact ⟨held, positive⟩
  | _ => trivial

theorem kept_step (limit : Int) (kept : traffic.Kept) (action : TrafficAction) :
    (traffic.step limit action).Kept := by
  have revises := revises_step limit kept action
  refine ⟨revises.integral kept.integral, ?_⟩
  have before (call : WritingCall) (member : call ∈ traffic.writings) :
      call.Faithful (traffic.step limit action).books.store :=
    (kept.faithful call member).mono fun _ _ => revises.files
  cases action with
  | begin op => exact before
  | outage tables => exact before
  | beginWriting request now =>
    intro call member
    rcases List.mem_append.1 member with old | new
    · exact before call old
    · rw [List.mem_singleton.1 new]
      trivial
  | proceed index =>
    cases found : traffic.errands[index]? with
    | none =>
      simp only [step, found] at before ⊢
      exact before
    | some errand =>
      simp only [step, found] at before ⊢
      exact before
  | proceedWriting caller =>
    cases found : traffic.writings[caller]? with
    | none =>
      simp only [step, found] at before ⊢
      exact before
    | some call =>
      simp only [step, found] at before ⊢
      intro other member
      rcases List.mem_or_eq_of_mem_set member with old | rfl
      · exact before other old
      · exact faithful_of_step kept (List.mem_of_getElem? found)

/-! ## A call that is lost along a run -/

/-- The call at a place is lost, and at most so many steps away from its error. -/
def Losing (traffic : Traffic) (caller steps : Nat) : Prop :=
  ∃ call, traffic.writings[caller]? = some call ∧ call.stage.Lost traffic.books.store ∧
    call.stage.left ≤ steps

/-- A call that is at a place in the list stays there while others act. -/
theorem losing_of_revises {after : Traffic} {caller steps : Nat}
    (losing : traffic.Losing caller steps)
    (revises : traffic.books.store.Revises after.books.store)
    (same : ∀ call, traffic.writings[caller]? = some call →
      after.writings[caller]? = some call) : after.Losing caller steps := by
  obtain ⟨call, found, lost, few⟩ := losing
  exact ⟨call, same call found, lost.mono revises, few⟩

theorem losing_step (limit : Int) (kept : traffic.Kept) {caller steps : Nat}
    (losing : traffic.Losing caller steps) (action : TrafficAction) :
    (traffic.step limit action).Losing caller
      (steps - if action.isStepOf caller then 1 else 0) := by
  have revises := revises_step limit kept action
  cases action with
  | begin op => exact losing_of_revises losing revises fun _ found => found
  | outage tables => exact losing_of_revises losing revises fun _ found => found
  | beginWriting request now =>
    refine losing_of_revises losing revises fun call found => ?_
    exact (List.getElem?_append_left (List.getElem?_eq_some_iff.1 found).1).trans found
  | proceed index =>
    refine losing_of_revises losing revises fun call found => ?_
    cases here : traffic.errands[index]? with
    | none =>
      simp only [step, here]
      exact found
    | some errand =>
      simp only [step, here]
      exact found
  | proceedWriting other =>
    by_cases own : other = caller
    · subst own
      obtain ⟨call, found, lost, few⟩ := losing
      obtain ⟨unchanged, lost', fewer⟩ := lost.step call.request call.now
      simp only [step, found, TrafficAction.isStepOf, decide_true, if_true]
      refine ⟨_, List.getElem?_set_self (List.getElem?_eq_some_iff.1 found).1, ?_, ?_⟩
      · rw [unchanged]
        exact lost'
      · exact fewer.trans (Nat.sub_le_sub_right few 1)
    · simp only [TrafficAction.isStepOf, own, decide_false, Bool.false_eq_true, if_false]
      refine losing_of_revises losing revises fun call found => ?_
      cases here : traffic.writings[other]? with
      | none =>
        simp only [step, here]
        exact found
      | some writer =>
        simp only [step, here]
        exact (List.getElem?_set_ne own).trans found

theorem losing_steps (limit : Int) {caller : Nat} (later : List TrafficAction) :
    ∀ {traffic : Traffic} {steps : Nat}, traffic.Kept → traffic.Losing caller steps →
      (later.foldl (step limit) traffic).Losing caller
        (steps - later.countP (TrafficAction.isStepOf caller)) := by
  induction later with
  | nil => exact fun _ losing => losing
  | cons action later ih =>
    intro traffic steps kept losing
    have tail := ih (kept_step limit kept action) (losing_step limit kept losing action)
    rw [List.foldl_cons, List.countP_cons, Nat.add_comm, ← Nat.sub_sub]
    exact tail

/-- A call of which so many steps have been taken cannot book any more: its steps change nothing,
and the second one at the latest ends it with an error. -/
structure Refuses (limit : Int) (caller steps : Nat) (traffic : Traffic) : Prop where
  unbooked : ∃ call, traffic.writings[caller]? = some call ∧ ¬call.HasBooked
  unchanged : (traffic.step limit (.proceedWriting caller)).books = traffic.books
  failed : 2 ≤ steps → ∃ call e, traffic.writings[caller]? = some call ∧
    call.stage = .finished (.error e)

theorem Losing.refuses {caller steps : Nat} (losing : traffic.Losing caller (2 - steps)) :
    traffic.Refuses limit caller steps := by
  obtain ⟨call, found, lost, few⟩ := losing
  constructor
  · refine ⟨call, found, ?_⟩
    rintro (recorded | finished)
    · rw [recorded] at lost
      cases lost
    · rw [finished] at lost
      cases lost
  · simp only [step, found]
    exact (lost.step call.request call.now).1
  · intro enough
    have none : call.stage.left = 0 := by omega
    generalize before : call.stage = stage at lost none
    cases lost with
    | categoryRead currency category spent => cases none
    | priced category base spent => cases none
    | failed e => exact ⟨call, e, found, before⟩

end Traffic

/-! ## Every run -/

/-- Tables of currencies that can be told apart, and of nothing else. -/
structure Store.HoldsCurrencies (store : Store) : Prop where
  noUsers : store.users = []
  noCategories : store.categories = []
  noExpenses : store.expenses = []
  ascending : Rows.Ascending Currency.id store.currencies
  codes : ∀ a ∈ store.currencies, ∀ b ∈ store.currencies, a.code = b.code → a.id = b.id

theorem Store.HoldsCurrencies.integral {store : Store} (holds : store.HoldsCurrencies) :
    store.Integral where
  toSound := .of_empty holds.noCategories holds.noExpenses
  currencyIds := holds.ascending
  codes := holds.codes
  users := by simp [holds.noUsers]
  categories := by simp [holds.noCategories]
  trimmed := by simp [holds.noCategories]
  named := by simp [holds.noCategories]

theorem Traffic.kept_ofActions (limit : Int) {start : Books} (holds : start.store.HoldsCurrencies)
    (actions : List TrafficAction) : (Traffic.ofActions limit start actions).Kept := by
  have first : Traffic.Kept { books := start } := ⟨holds.integral, by simp⟩
  exact List.foldlRecOn actions (Traffic.step limit) first
    fun _ kept action _ => Traffic.kept_step limit kept action

/-- In whatever order statements come, all that rows refer to exists and what has to be unique is. A
call that has read a category of a user who is gone then refuses its expense, whatever is done
later. -/
theorem references_hold (limit : Int) {start : Books} (holds : start.store.HoldsCurrencies)
    (actions : List TrafficAction) :
    (Traffic.ofActions limit start actions).books.store.Referential ∧
      ∀ caller call category,
        (Traffic.ofActions limit start actions).writings[caller]? = some call →
        call.stage.category? = some category →
        (Traffic.ofActions limit start actions).books.store.user? call.request.user = none →
        ∀ later, (Traffic.ofActions limit start (actions ++ later)).Refuses limit caller
          (later.countP (TrafficAction.isStepOf caller)) := by
  have kept := Traffic.kept_ofActions limit holds actions
  refine ⟨kept.integral.referential, fun caller call category found read absent later => ?_⟩
  have files : (Traffic.ofActions limit start actions).books.store.Files call.request.user
      category := by
    have held := kept.faithful call (List.mem_of_getElem? found)
    unfold WritingCall.Faithful at held
    generalize call.stage = stage at read held
    cases stage with
    | categoryRead currency own =>
      cases read
      exact held
    | priced own base =>
      cases read
      exact held.1
    | _ => cases read
  have lost := Writing.Lost.of_category? read (kept.integral.spent_of_absent files absent)
  have losing : (Traffic.ofActions limit start actions).Losing caller 2 :=
    ⟨call, found, lost, call.stage.left_le⟩
  unfold Traffic.ofActions
  rw [List.foldl_append]
  exact (Traffic.losing_steps limit later kept losing).refuses

/-- Somebody looks up a category, and its user is erased. -/
def erasedMeanwhile : List TrafficAction :=
  let request : ExpenseRequest :=
    { user := 1, category := "food", amount := ⟨60⟩, time := .epoch }
  [.begin (.addUser 1), .proceed 0, .begin (.addCategory 1 " food"), .proceed 1,
    .beginWriting request .epoch, .proceedWriting 0, .proceedWriting 0, .begin (.resetUser 1),
    .proceed 2]

/-- The user comes back with a category of the same name, and the call goes on. -/
def comesBack : List TrafficAction :=
  [.proceed 2, .begin (.addUser 1), .proceed 3, .begin (.addCategory 1 "food "), .proceed 4,
    .proceedWriting 0, .proceedWriting 0]

theorem newBooks_holdsCurrencies : newBooks.store.HoldsCurrencies :=
  ⟨rfl, rfl, rfl, List.pairwise_singleton _ _, by simp [newBooks]⟩

/-- The call, which has the number 1 for the category, finds that the new one has the number 2. -/
theorem references_hold_comesBack :
    newBooks.store.HoldsCurrencies ∧
      (∃ call, (Traffic.ofActions 100 newBooks erasedMeanwhile).writings[0]? = some call ∧
        call.stage.category? = some 1 ∧
        (Traffic.ofActions 100 newBooks erasedMeanwhile).books.store.user? call.request.user =
          none) ∧
      (Traffic.ofActions 100 newBooks (erasedMeanwhile ++ comesBack)).Refuses 100 0 2 ∧
      (Traffic.ofActions 100 newBooks (erasedMeanwhile ++ comesBack)).books.store.categories =
        [{ id := 2, user := 1, name := "food" }] :=
  ⟨newBooks_holdsCurrencies, ⟨_, rfl, by decide +kernel, by decide +kernel⟩,
    (references_hold 100 newBooks_holdsCurrencies erasedMeanwhile).2 0 _ 1 rfl (by decide +kernel)
      (by decide +kernel) comesBack,
    by decide +kernel⟩

end ExpenseLedger
