import ExpenseLedger.Proofs.Ledger.Erasure
import ExpenseLedger.Proofs.Report.Interleaving
import ExpenseLedger.Proofs.Report.Solvency
import ExpenseLedger.Proofs.Users.Everybody

/-!
# Nothing is left of a user who is erased

Two machines have the same behind them, but for what one user did on the first alone. They look alike to
anybody of whom there is nothing on either: `Machine.Abreast`. Once the user is erased there is nothing
of it on either machine, so they look alike to the user as well, whatever comes next.
-/

namespace ExpenseLedger

/-- The step is a command of a user. -/
def MachineStep.isOf (user : Int) : MachineStep → Bool
  | .run command => command.user? = some user
  | .clock _ => false

namespace Machine

variable {configuration : Configuration} {user owner : Int} {count : Nat} {machine other : Machine}
  {act : Configuration → Machine → Outcome Output × Machine}

theorem Twins.symm (twins : Twins user count machine other) : Twins user count other machine where
  now := twins.now.symm
  behind := twins.behind.symm
  service := twins.service.symm
  result inTime := (twins.result inTime).symm
  currencies := twins.currencies.symm
  view := by
    rw [twins.now]
    exact twins.view.symm
  ready := twins.ready'
  ready' := twins.ready

/-! ## What is done for one user -/

section Acts

variable (ready : machine.Ready (count + 1))

include ready

/-- What is done in an open home leaves it open, so the home can be opened afterwards as before. -/
theorem opens_loaded (opens : machine.home.load.1 = .ok configuration)
    (leaves : ∀ configuration, machine.load.1 = .ok configuration →
      Settled configuration count (act configuration machine.opening).2) :
    (machine.withProcess.loaded act).2.home.load.1 = .ok configuration := by
  cases opening : machine.load.1 with
  | error e =>
    rw [loaded_of_error opening]
    exact (congrArg Prod.fst ready.load_load).trans opens
  | ok configuration' =>
    have same : configuration' = configuration :=
      Except.ok.inj ((load_eq_ok opening).2.symm.trans opens)
    rw [loaded_of_ok opening, (leaves configuration' opening).load, same]

theorem ActsFor.settled (acts : ActsFor owner act) (opens : machine.load.1 = .ok configuration) :
    Settled configuration count (act configuration machine.opening).2 := by
  have settled := ready.settled opens
  obtain ⟨store, left, changes⟩ := acts configuration count _ settled
  rw [left]
  exact settled.withStore changes

theorem ActsFor.lacks (acts : ActsFor owner act) (different : owner ≠ user)
    (lacks : machine.home.store.Lacks user) :
    (machine.withProcess.loaded act).2.home.store.Lacks user := by
  have lacksStill := lacks.of_same machine.sameHoldings_opening
  cases opens : machine.load.1 with
  | error e =>
    rw [loaded_of_error opens]
    exact lacksStill
  | ok configuration =>
    have settled := ready.settled opens
    obtain ⟨store, left, spent, -, changes⟩ := acts configuration count _ settled
    rw [loaded_of_ok opens, left, settled.store_withStore]
    exact Store.Lacks.changes changes different lacksStill

theorem ForEverybody.lacks_loaded (everybody : ForEverybody act)
    (lacks : machine.home.store.Lacks user) :
    (machine.withProcess.loaded act).2.home.store.Lacks user := by
  have lacksStill := lacks.of_same machine.sameHoldings_opening
  cases opens : machine.load.1 with
  | error e =>
    rw [loaded_of_error opens]
    exact lacksStill
  | ok configuration =>
    rw [loaded_of_ok opens]
    exact everybody.lacks configuration count _ (ready.settled opens) user lacksStill

end Acts

/-! ## Machines abreast of each other -/

/-- The homes can be opened, and look alike to somebody. -/
structure Abreast (configuration : Configuration) (count : Nat) (machine other : Machine) :
    Prop where
  opens : machine.home.load.1 = .ok configuration
  twins : ∃ user, Twins user count machine other

namespace Abreast

theorem refl (opens : machine.home.load.1 = .ok configuration) (ready : machine.Ready count) :
    Abreast configuration count machine machine :=
  ⟨opens, 0, Twins.refl ready⟩

theorem mono (abreast : Abreast configuration count machine other) {fewer : Nat}
    (h : fewer ≤ count) : Abreast configuration fewer machine other := by
  obtain ⟨opens, user, twins⟩ := abreast
  exact ⟨opens, user, twins.mono h⟩

theorem symm (abreast : Abreast configuration count machine other) :
    Abreast configuration count other machine := by
  obtain ⟨opens, user, twins⟩ := abreast
  exact ⟨(twins.result true).trans opens, user, twins.symm⟩

/-- Everybody who has nothing on either machine finds them alike. -/
theorem twins_of_lacks (abreast : Abreast configuration count machine other)
    (lacks : machine.home.store.Lacks user) (lacks' : other.home.store.Lacks user) :
    Twins user count machine other := by
  obtain ⟨-, somebody, twins⟩ := abreast
  exact { twins with view := by rw [lacks.viewOf_eq, lacks'.viewOf_eq] }

theorem trans {middle : Machine} (first : Abreast configuration count machine middle)
    (second : Abreast configuration count middle other) :
    Abreast configuration count machine other := by
  obtain ⟨stranger, -, lacks, lacks'⟩ := machine.home.store.exists_stranger other.home.store 0
  obtain ⟨opens, _, twins⟩ := first
  obtain ⟨-, _, twins'⟩ := second
  exact
    { opens
      twins := ⟨stranger,
        { now := twins'.now.trans twins.now
          behind := twins'.behind.trans twins.behind
          service := twins'.service.trans twins.service
          result := fun inTime => (twins'.result inTime).trans (twins.result inTime)
          currencies := twins'.currencies.trans twins.currencies
          view := by rw [lacks.viewOf_eq, lacks'.viewOf_eq]
          ready := twins.ready
          ready' := twins'.ready' }⟩ }

/-- There is always one who finds them alike, and is not the owner of what is done next. -/
theorem exists_twins (abreast : Abreast configuration count machine other) (owner : Int) :
    ∃ stranger, stranger ≠ owner ∧ machine.home.store.Lacks stranger ∧
      other.home.store.Lacks stranger ∧ Twins stranger count machine other := by
  obtain ⟨stranger, different, lacks, lacks'⟩ :=
    machine.home.store.exists_stranger other.home.store owner
  exact ⟨stranger, different, lacks, lacks', abreast.twins_of_lacks lacks lacks'⟩

/-- Time may pass, or be put back, on both. -/
theorem clock (abreast : Abreast configuration count machine other) (millis : Int) :
    Abreast configuration count (machine.moveClock millis) (other.moveClock millis) := by
  obtain ⟨stranger, -, lacks, lacks', twins⟩ := abreast.exists_twins 0
  have behind := congrArg (fun behind : Nat => ((behind : Int) - millis).toNat) twins.behind
  refine ⟨abreast.opens, stranger, congrArg (· + millis) twins.now, behind, twins.service,
    twins.result, twins.currencies, ?_, twins.ready, twins.ready'⟩
  -- A clock that is put back brings no report to life of somebody who has none.
  exact (lacks'.viewOf_eq _).trans (lacks.viewOf_eq _).symm

/-- What is done for one user on one machine leaves the machines abreast. -/
theorem loaded_left (abreast : Abreast configuration (count + 1) machine other)
    (acts : ActsFor owner act) :
    Abreast configuration count (machine.withProcess.loaded act).2 other := by
  obtain ⟨stranger, different, -, -, twins⟩ := abreast.exists_twins owner
  exact ⟨opens_loaded twins.ready abreast.opens fun _ opens => acts.settled twins.ready opens,
    stranger, twins.loaded_left acts different⟩

theorem loaded (abreast : Abreast configuration (count + 1) machine other)
    (everybody : ForEverybody act) :
    Abreast configuration count (machine.withProcess.loaded act).2
      (other.withProcess.loaded act).2 := by
  obtain ⟨stranger, -, -, -, twins⟩ := abreast.exists_twins 0
  refine ⟨opens_loaded twins.ready abreast.opens fun configuration opens => ?_, stranger,
    twins.loaded (everybody.keeps stranger)⟩
  exact (everybody.keeps stranger configuration count _ _ (twins.alike opens)).settled

theorem withProcess (abreast : Abreast configuration count machine other) :
    Abreast configuration count machine.withProcess other := by
  obtain ⟨opens, somebody, twins⟩ := abreast
  have ready : machine.withProcess.Ready count := fun configuration opens =>
    ⟨(twins.ready configuration opens).1.mono (Nat.le_succ _), (twins.ready configuration opens).2⟩
  exact ⟨opens, somebody, { twins with ready := ready }⟩

theorem opening (abreast : Abreast configuration count machine other) :
    Abreast configuration count machine.opening other := by
  obtain ⟨opens, somebody, twins⟩ := abreast
  refine ⟨?_, somebody, twins.opening.of_opening twins.ready'⟩
  rw [twins.ready.load_load]
  exact opens

theorem init (abreast : Abreast configuration count machine other) (existOk : Bool) :
    Abreast configuration count (machine.run (.init existOk) 0).2 other := by
  rcases run_init abreast.opens existOk with begun | opened
  · rw [begun]
    exact abreast.withProcess
  · rw [opened]
    exact abreast.opening

end Abreast

theorem lacks_init (opens : machine.home.load.1 = .ok configuration) (existOk : Bool)
    (lacks : machine.home.store.Lacks user) :
    (machine.run (.init existOk) 0).2.home.store.Lacks user := by
  rcases run_init opens existOk with begun | opened
  · rw [begun]
    exact lacks
  · rw [opened]
    exact lacks.of_same machine.sameHoldings_opening

/-! ## Histories -/

namespace Abreast

/-- A command of one user is run on one machine. -/
theorem run_left (abreast : Abreast configuration (count + 1) machine other) {command : Command}
    (own : command.user? = some owner) :
    Abreast configuration count (machine.run command 0).2 other := by
  obtain ⟨act, run, acts, -⟩ := exists_act_of_user? own
  rw [run]
  exact abreast.loaded_left acts

/-- A command that is not the user's is run on both machines. -/
theorem run (abreast : Abreast configuration (count + 1) machine other)
    (lacks : other.home.store.Lacks user) {command : Command}
    (notOwn : command.user? ≠ some user) :
    Abreast configuration count (machine.run command 0).2 (other.run command 0).2 ∧
      (other.run command 0).2.home.store.Lacks user := by
  obtain ⟨somebody, twins⟩ := abreast.twins
  have opens' := abreast.symm.opens
  have fewer := abreast.mono (Nat.le_succ count)
  cases about : command.user? with
  | some owner =>
    -- Each machine is compared with itself before the command, so that each spends one number only.
    have left := (refl abreast.opens twins.ready).run_left about
    have right := (refl opens' twins.ready').run_left about
    obtain ⟨act, run, acts, -⟩ := exists_act_of_user? about
    have different : owner ≠ user := fun same => notOwn (about.trans (congrArg some same))
    refine ⟨(left.trans fewer).trans right.symm, ?_⟩
    rw [run]
    exact acts.lacks twins.ready' different lacks
  | none =>
    by_cases making : ∃ existOk, command = .init existOk
    · obtain ⟨existOk, rfl⟩ := making
      exact ⟨((fewer.init existOk).symm.init existOk).symm, lacks_init opens' existOk lacks⟩
    · obtain ⟨act, run, everybody⟩ := exists_act_of_forEverybody about
        fun existOk same => making ⟨existOk, same⟩
      rw [run, run]
      exact ⟨abreast.loaded everybody, everybody.lacks_loaded twins.ready' lacks⟩

/-- The machines stay abreast if the commands of a user are run on the first alone, and on the second
there is nothing of the user. -/
theorem play {history : List MachineStep}
    (abreast : Abreast configuration (count + history.length) machine other)
    (lacks : other.home.store.Lacks user) :
    let others := history.filter fun step => !step.isOf user
    Abreast configuration count (play user history machine).2 (play user others other).2 ∧
      (play user others other).2.home.store.Lacks user := by
  induction history generalizing machine other with
  | nil => exact ⟨abreast, lacks⟩
  | cons step history ih =>
    cases step with
    | clock millis => exact ih ((abreast.mono (Nat.le_succ _)).clock millis) lacks
    | run command =>
      by_cases own : command.user? = some user
      · rw [List.filter_cons_of_neg (by simp [MachineStep.isOf, own])]
        exact ih (abreast.run_left own) lacks
      · rw [List.filter_cons_of_pos (by simp [MachineStep.isOf, own])]
        obtain ⟨left, stillLacks⟩ := abreast.run lacks own
        exact ih left stillLacks

end Abreast

/-! ## Erasing -/

/-- In an open home, erasing takes away all that the user has. -/
theorem Settled.userReset {row : User} (settled : machine.Settled configuration count)
    (found : machine.books.store.user? user = some row) :
    machine.onBooks (.userReset user) =
      (.ok { message := "Erased user " ++ integerText user },
        machine.withStore ((machine.home.store.withoutUser user).withoutReports user)) := by
  have reached := settled.inOrder.reached
  have erased : machine.books.resetUser user =
      .ok { machine.books with
        store := (machine.home.store.withoutUser user).withoutReports user } := by
    rw [Books.resetUser_of_found reached found, Books.invalidate_eq rfl reached]
    rfl
  unfold onBooks BookCommand.userReset BookCommand.afterChange BookCommand.after
  simp only [erased]
  rfl

/-- Who is there can be erased, and then has nothing. -/
theorem run_userReset {row : User} (opens : machine.load.1 = .ok configuration)
    (ready : machine.Ready count) (found : machine.home.store.user? user = some row) :
    (machine.run (.userReset user) 0).1 =
        .ok { message := "Erased user " ++ integerText user } ∧
      (machine.run (.userReset user) 0).2.home.store.Lacks user := by
  have settled := ready.settled opens
  have isThere : machine.opening.books.store.user? user = some row := by
    have same : machine.opening.home.store.users = machine.home.store.users :=
      machine.sameHoldings_opening.users
    unfold Store.user? at found ⊢
    rw [← found, ← same]
    rfl
  have ran : machine.run (.userReset user) 0 = machine.opening.onBooks (.userReset user) := by
    rw [run_of_waits rfl]
    exact loaded_of_ok opens fun _ => onBooks (.userReset user)
  rw [ran, settled.userReset isThere]
  refine ⟨rfl, ?_⟩
  rw [settled.store_withStore]
  exact Store.lacks_erased _ user

/-- A user that is erased and added again is told what it is told where it is added for the first
time. -/
theorem play_userReset {steps : List MachineStep} {row : User}
    (abreast : Abreast configuration (steps.length + 2) machine other)
    (inTime : machine.isInTime = true) (found : machine.home.store.user? user = some row)
    (lacks : other.home.store.Lacks user)
    (suits : ∀ step ∈ steps, step.suits user = true)
    (forward : ∀ step ∈ steps, step.goesForward = true) :
    (play user (.run (.userReset user) :: .run (.userAdd user) :: steps) machine).1 =
      .ok { message := "Erased user " ++ integerText user } ::
        (play user (.run (.userAdd user) :: steps) other).1 := by
  obtain ⟨_, before⟩ := abreast.twins
  obtain ⟨result, nothing⟩ :=
    run_userReset ((load_of_inTime inTime).trans abreast.opens) before.ready found
  let steps' := MachineStep.run (.userAdd user) :: steps
  have suits' : ∀ step ∈ steps', step.suits user = true := by
    refine List.forall_mem_cons.2 ⟨?_, suits⟩
    simp [MachineStep.suits, Command.user?, Command.waits]
  have forward' : ∀ step ∈ steps', step.goesForward = true :=
    List.forall_mem_cons.2 ⟨rfl, forward⟩
  have twins : Twins user steps'.length (machine.run (.userReset user) 0).2 other :=
    (abreast.run_left rfl).twins_of_lacks nothing lacks
  have same := (twins.play suits' forward').1
  have same' := ((Twins.refl twins.ready').play suits' forward').1
  rw [play_own rfl]
  exact congrArg₂ List.cons result (same.symm.trans same')

end Machine

/-- Erasing a user is complete and exact. Wherever writers, report calls and workers have come to, the
rows, expenses and reports of the user go, and nothing else. And whatever has been run on a machine, a
user who is erased and added again gets the results that it gets on a machine that has the same behind
it but for the commands of the user. The clock may have been put back before, if the database still
opens in time. -/
theorem erasure_complete (user : Int) :
    (∀ {limit : Int}, 0 < limit → FitsInt64 limit →
      ∀ {desk : Desk}, desk.books.Vacant → ∀ (settings : ReportSettings)
        (actions : List ReportAction),
        let books := (ReportRun.ofActions settings limit desk actions).world.desk.books
        books.store.outOfReach = [] → ∀ {row : User}, books.store.user? user = some row →
          ∃ after, books.resetUser user = .ok after ∧ books.Erased user after) ∧
    ∀ {configuration : Configuration} {start : Machine} (history steps : List MachineStep),
      start.home.load.1 = .ok configuration → start.home.store.Lacks user →
      start.Ready (history.length + steps.length + 2) →
      (∀ step ∈ steps, step.suits user = true) → (∀ step ∈ steps, step.goesForward = true) →
      let others := history.filter fun step => !step.isOf user
      let reached := (Machine.play user history start).2
      let unmet := (Machine.play user others start).2
      reached.isInTime = true → ∀ {row : User}, reached.home.store.user? user = some row →
        (Machine.play user (.run (.userReset user) :: .run (.userAdd user) :: steps) reached).1 =
          .ok { message := "Erased user " ++ integerText user } ::
            (Machine.play user (.run (.userAdd user) :: steps) unmet).1 := by
  constructor
  · intro limit limit_pos fits desk vacant settings actions books inReach row found
    have solvent := ReportRun.solvent_ofActions settings limit_pos fits vacant actions
    exact solvent.toRegular.resetUser solvent.sound inReach found
  · intro configuration start history steps opens lacks ready suits forward others reached unmet inTime
      row found
    have room : start.Ready ((steps.length + 2) + history.length) := ready.mono (by omega)
    obtain ⟨abreast, stillLacks⟩ := (Machine.Abreast.refl opens room).play lacks
    exact Machine.play_userReset abreast inTime found stillLacks suits forward

/-- A user comes, books an expense and has a report of it, and somebody else has a report as well. -/
def thirdUser : List MachineStep :=
  [.run (.userAdd 3), .run (.categoryAdd 3 "rent"), .run (.expenseAdd 3 "rent" ⟨4000⟩ none),
    .run (.report 3 .all true), .run (.report 1 .all true), .run (.worker false false)]

/-- What the user does after it has been erased. -/
def afterErasure : List MachineStep :=
  [.run (.categoryAdd 3 "rent"), .run (.limitShow 3), .run (.report 3 .all true)]

/-- The category of the user can be made again, the limit is whole and the report is empty, as if the user
had not been there. -/
theorem erasure_complete_thirdUser :
    (0 < (100 : Int) ∧ FitsInt64 100 ∧ newDesk.books.Vacant ∧
      let books := (ReportRun.ofActions sharedSettings 100 newDesk oneReport).world.desk.books
      let row : User := { id := 1, currency := 0, defaultLimit := 100, currentLimit := 40 }
      books.store.outOfReach = [] ∧ books.store.user? 1 = some row ∧
        ∃ after, books.resetUser 1 = .ok after ∧ books.Erased 1 after) ∧
    (let start := Machine.sampleMachine Machine.sampleStore 0
      let row : User := { id := 3, currency := 0, defaultLimit := 1000000, currentLimit := 996000 }
      let others := thirdUser.filter fun step => !step.isOf 3
      let reached := (Machine.play 3 thirdUser start).2
      let unmet := (Machine.play 3 others start).2
      (∃ configuration, start.home.load.1 = .ok configuration) ∧ start.home.store.Lacks 3 ∧
        start.Ready (thirdUser.length + afterErasure.length + 2) ∧
        (∀ step ∈ afterErasure, step.suits 3 = true) ∧
        (∀ step ∈ afterErasure, step.goesForward = true) ∧
        reached.isInTime = true ∧ reached.home.store.user? 3 = some row ∧
        (Machine.play 3 (.run (.userReset 3) :: .run (.userAdd 3) :: afterErasure) reached).1 =
          .ok { message := "Erased user 3" } ::
            (Machine.play 3 (.run (.userAdd 3) :: afterErasure) unmet).1 ∧
        Machine.messages (Machine.play 3 (.run (.userAdd 3) :: afterErasure) unmet).1 =
          [some "Added user 3", some "Added category 'rent'",
            some "Monthly limit 10000.00 RUB, 10000.00 RUB left this month",
            some "Expenses since 1970-01-01 (all):\nnothing recorded\ntotal: 0.00 RUB"]) := by
  constructor
  · have fits : FitsInt64 100 := by decide
    have vacant : newDesk.books.Vacant := ⟨rfl, rfl, rfl, rfl, nofun⟩
    have inReach : (ReportRun.ofActions sharedSettings 100 newDesk
        oneReport).world.desk.books.store.outOfReach = [] := by decide +kernel
    have found : (ReportRun.ofActions sharedSettings 100 newDesk
        oneReport).world.desk.books.store.user? 1 =
          some { id := 1, currency := 0, defaultLimit := 100, currentLimit := 40 } := by
      decide +kernel
    exact ⟨by decide, fits, vacant, inReach, found,
      (erasure_complete 1).1 (by decide) fits vacant sharedSettings oneReport inReach found⟩
  · intro start row others reached unmet
    obtain ⟨configuration, opens⟩ : ∃ configuration, start.home.load.1 = .ok configuration := by
      have isOk : start.home.load.1.isOk = true := by decide +kernel
      cases result : start.home.load.1 with
      | ok configuration => exact ⟨configuration, rfl⟩
      | error e =>
        rw [result] at isOk
        cases isOk
    have lacks : start.home.store.Lacks 3 := ⟨by decide, by decide, by decide, by decide⟩
    have second : Store.NumbersLeft 2 11 := ⟨by decide, by decide⟩
    have first : Store.NumbersLeft 1 11 := ⟨by decide, by decide⟩
    have ready : start.Ready (thirdUser.length + afterErasure.length + 2) :=
      Machine.ready_of_inOrder Machine.inOrder_sampleStore ⟨second, second, first⟩
    have suits : ∀ step ∈ afterErasure, step.suits 3 = true := by decide
    have forward : ∀ step ∈ afterErasure, step.goesForward = true := by decide
    have inTime : reached.isInTime = true := by decide +kernel
    have found : reached.home.store.user? 3 = some row := by decide +kernel
    have same :=
      (erasure_complete 3).2 thirdUser afterErasure opens lacks ready suits forward inTime found
    exact ⟨⟨configuration, opens⟩, lacks, ready, suits, forward, inTime, found, same,
      by decide +kernel⟩

end ExpenseLedger
