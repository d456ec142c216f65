import ExpenseLedger.Proofs.Users.Machines

/-!
# Users are separate

What happens on a machine is a sequence of commands, each of which has ended before the next one
begins, and of moves of the clock. What others do in between shows nowhere for a user: the user's
commands yield the same without it, and leave the user the same (`Machine.Twins.play`).

The clock has to go forward. What has expired is deleted by whoever puts a report into the cache,
so a clock that is put back brings expired reports to life again, or does not.
-/

namespace ExpenseLedger

namespace Command

/-- The user whom a command is about. -/
def user? : Command → Option Int
  | .userAdd user | .userReset user | .categoryAdd user _ | .expenseAdd user _ _ _
  | .limitShow user | .limitSet user _ | .limitReset user | .currencySet user _
  | .report user _ _ => some user
  | .init _ | .limitResetAll | .currencyList | .currencyRefresh | .worker _ _ => none

/-- The command changes something for everybody. -/
def isForAll : Command → Bool
  | .limitResetAll | .currencyRefresh => true
  | _ => false

/-- The command waits for a worker elsewhere. -/
def waits : Command → Bool
  | .report _ _ runLocally => !runLocally
  | _ => false

end Command

/-- A step in what happens on a machine. -/
inductive MachineStep where
  | run (command : Command)
  | clock (millis : Int)
  deriving DecidableEq

namespace MachineStep

/-- The step is a user's own or for everybody. -/
def concerns (user : Int) : MachineStep → Bool
  | .run command => command.user? = some user || command.user?.isNone
  | .clock _ => true

/-- Every command is about one user or for everybody, and those of the user do not wait. -/
def suits (user : Int) : MachineStep → Bool
  | .run command =>
    (command.user?.isSome || command.isForAll) && !(command.user? = some user && command.waits)
  | .clock _ => true

/-- The clock is not put back. -/
def goesForward : MachineStep → Bool
  | .run _ => true
  | .clock millis => 0 ≤ millis

end MachineStep

namespace Machine

variable {user : Int} {count : Nat} {machine other : Machine}

/-- Takes one step after the other: what the commands of a user yield in turn, and the machine
that is left. -/
def play (user : Int) : List MachineStep → Machine → List (Outcome Output) × Machine
  | [], machine => ([], machine)
  | .clock millis :: steps, machine => play user steps (machine.moveClock millis)
  | .run command :: steps, machine =>
    let (result, machine) := machine.run command 0
    let (results, machine) := play user steps machine
    (if command.user? = some user then result :: results else results, machine)

/-! ## Single commands -/

theorem run_of_waits {command : Command} (ends : command.waits = false) (machine : Machine) :
    machine.run command 0 = machine.withProcess.perform command := by
  have begun : machine.begin command =
      (.ended (machine.withProcess.perform command).1,
        (machine.withProcess.perform command).2) := by
    unfold begin
    split
    · cases ends
    · rfl
  unfold run
  rw [begun]
  simp only [later_zero]
  rfl

theorem run_waitingReport (user : Int) (period : Period) (machine : Machine) :
    machine.run (.report user period false) 0 =
      machine.withProcess.loaded fun configuration machine =>
        ((machine.beginReport configuration user period).2.later 0).conclude
          (machine.beginReport configuration user period).1 := by
  unfold run begin loaded
  simp only
  cases machine.withProcess.load with
  | mk result left =>
    cases result with
    | ok configuration => rfl
    | error e => exact congrArg (Prod.mk _) (later_zero left)

/-- Opening the home takes no time. -/
theorem run_expenseAdd (user : Int) (category : String) (amount : Amount) (date : Option Instant)
    (machine : Machine) :
    machine.run (.expenseAdd user category amount date) 0 =
      machine.withProcess.loaded fun _ machine =>
        machine.onBooks (.expenseAdd
          { user, category, amount, time := date.getD machine.instant } machine.instant) := by
  have sameTime : machine.withProcess.load.2.instant = machine.withProcess.instant := rfl
  rw [run_of_waits rfl]
  unfold perform onLoadedBooks loaded
  simp only
  rw [← sameTime]
  cases machine.withProcess.load with
  | mk result left => cases result <;> rfl

/-- A command about a user is run once the home is open. It acts for that user alone, and unless
it waits for somebody it serves the user. -/
theorem exists_act_of_user? {command : Command} {owner : Int} (own : command.user? = some owner) :
    ∃ act, (∀ machine : Machine, machine.run command 0 = machine.withProcess.loaded act) ∧
      ActsFor owner act ∧ (command.waits = false → Serves owner act) := by
  have serving {command : Command} {act : Configuration → Machine → Outcome Output × Machine}
      (run : ∀ machine : Machine, machine.run command 0 = machine.withProcess.loaded act)
      (serves : Serves owner act) :
      ∃ act, (∀ machine : Machine, machine.run command 0 = machine.withProcess.loaded act) ∧
        ActsFor owner act ∧ (command.waits = false → Serves owner act) :=
    ⟨act, run, serves.acts, fun _ => serves⟩
  cases command <;> cases own
  case userAdd =>
    exact serving (run_of_waits rfl) <| serves_onBooks
      (fun configuration _ now =>
        BookCommand.changesOnlyFor_userAdd owner now configuration.file.monthLimit)
      fun configuration _ now =>
        BookCommand.respects_userAdd owner now configuration.file.monthLimit
  case userReset =>
    exact serving (run_of_waits rfl) <| serves_onBooks
      (fun _ _ now => BookCommand.changesOnlyFor_userReset owner now)
      fun _ _ now => BookCommand.respects_userReset owner now
  case categoryAdd name =>
    exact serving (run_of_waits rfl) <| serves_onBooks
      (fun _ _ now => BookCommand.changesOnlyFor_categoryAdd owner now name)
      fun _ _ now => BookCommand.respects_categoryAdd owner now name
  case expenseAdd category amount date =>
    exact serving (run_expenseAdd owner category amount date) <| serves_onBooks
      (fun _ present now => BookCommand.changesOnlyFor_expenseAdd now
        { user := owner, category, amount, time := date.getD present } present)
      fun _ present now => BookCommand.respects_expenseAdd now
        { user := owner, category, amount, time := date.getD present } present
  case limitShow =>
    exact serving (run_of_waits rfl) <| serves_onBooks
      (fun _ _ now => BookCommand.changesOnlyFor_limitShow owner now)
      fun _ _ now => BookCommand.respects_limitShow owner now
  case limitSet amount =>
    exact serving (run_of_waits rfl) <| serves_onBooks
      (fun _ _ now => BookCommand.changesOnlyFor_limitSet owner now amount)
      fun _ _ now => BookCommand.respects_limitSet owner now amount
  case limitReset =>
    exact serving (run_of_waits rfl) <| serves_onBooks
      (fun _ _ now => BookCommand.changesOnlyFor_limitReset owner now)
      fun _ _ now => BookCommand.respects_limitReset owner now
  case currencySet code =>
    exact serving (run_of_waits rfl) <| serves_onBooks
      (fun _ _ now => BookCommand.changesOnlyFor_currencySet owner now code)
      fun _ _ now => BookCommand.respects_currencySet owner now code
  case report period runLocally =>
    cases runLocally with
    | false => exact ⟨_, run_waitingReport owner period, actsFor_beginReport owner period, nofun⟩
    | true => exact serving (run_of_waits rfl) (serves_localReport owner period)

/-- A command for everybody looks the same to everybody. -/
theorem exists_act_of_isForAll {command : Command} (all : command.isForAll = true) (user : Int) :
    ∃ act, (∀ machine : Machine, machine.run command 0 = machine.withProcess.loaded act) ∧
      KeepsAlike user act := by
  cases command <;> cases all
  case limitResetAll =>
    exact ⟨_, run_of_waits rfl, keepsAlike_limitResetAll user⟩
  case currencyRefresh =>
    exact ⟨_, run_of_waits rfl, keepsAlike_currencyRefresh user⟩

/-! ## Sequences of steps -/

theorem play_own {command : Command} (own : command.user? = some user)
    (steps : List MachineStep) (machine : Machine) :
    play user (.run command :: steps) machine =
      let ran := machine.run command 0
      (ran.1 :: (play user steps ran.2).1, (play user steps ran.2).2) := by
  simp only [play, own, if_true]

theorem play_other {command : Command} (notOwn : command.user? ≠ some user)
    (steps : List MachineStep) (machine : Machine) :
    play user (.run command :: steps) machine = play user steps (machine.run command 0).2 := by
  simp only [play, notOwn, if_false]

/-- A sequence of steps, and those steps of it that concern the user. -/
theorem Twins.play {steps : List MachineStep} (twins : Twins user steps.length machine other)
    (suits : ∀ step ∈ steps, step.suits user = true)
    (forward : ∀ step ∈ steps, step.goesForward = true) :
    (play user (steps.filter (MachineStep.concerns user)) other).1 = (play user steps machine).1 ∧
      Twins user 0 (play user steps machine).2
        (play user (steps.filter (MachineStep.concerns user)) other).2 := by
  induction steps generalizing machine other with
  | nil => exact ⟨rfl, twins⟩
  | cons step steps ih =>
    have suited := suits step List.mem_cons_self
    have later := fun step member => suits step (List.mem_cons_of_mem _ member)
    have onwards := fun step member => forward step (List.mem_cons_of_mem _ member)
    cases step with
    | clock millis =>
      have passes : 0 ≤ millis := of_decide_eq_true (forward _ List.mem_cons_self)
      rw [List.filter_cons_of_pos (by rfl)]
      exact ih ((twins.mono (Nat.le_succ _)).moveClock passes) later onwards
    | run command =>
      cases owner_eq : command.user? with
      | none =>
        have all : command.isForAll = true := by simpa [MachineStep.suits, owner_eq] using suited
        obtain ⟨act, run, keeps⟩ := exists_act_of_isForAll all user
        have notOwn : command.user? ≠ some user := owner_eq.trans_ne nofun
        have left := twins.loaded keeps
        rw [← run, ← run] at left
        rw [List.filter_cons_of_pos (by simp [MachineStep.concerns, owner_eq]), play_other notOwn,
          play_other notOwn]
        exact ih left later onwards
      | some owner =>
        obtain ⟨act, run, acts, serves⟩ := exists_act_of_user? owner_eq
        by_cases own : owner = user
        · subst own
          have ends : command.waits = false := by simpa [MachineStep.suits, owner_eq] using suited
          have result := twins.loaded_result (serves ends).answers
          have left := twins.loaded (serves ends).keeps
          rw [← run, ← run] at result left
          rw [List.filter_cons_of_pos (by simp [MachineStep.concerns, owner_eq]),
            play_own owner_eq, play_own owner_eq]
          obtain ⟨results, twins⟩ := ih left later onwards
          exact ⟨congrArg₂ List.cons result results, twins⟩
        · have notOwn : command.user? ≠ some user := by
            rw [owner_eq]
            exact fun same => own (Option.some.inj same)
          have left := twins.loaded_left acts (Ne.symm own)
          rw [← run] at left
          rw [List.filter_cons_of_neg (by simp [MachineStep.concerns, owner_eq, own]),
            play_other notOwn]
          exact ih left later onwards

/-- Tables of two users, of whom the first has booked an expense and has had a report. -/
def sampleStore : Store where
  currencies :=
    [{ id := 0, code := "RUB", rate := Binary64.one },
      { id := 1, code := "USD", rate := Binary64.one }]
  users :=
    [{ id := 1, currency := 1, defaultLimit := 1000000, currentLimit := 999500 },
      { id := 2, currency := 0, defaultLimit := 1000000, currentLimit := 1000000 }]
  categories := [{ id := 1, user := 1, name := "food" }]
  expenses := [{ id := 1, user := 1, category := 1, time := 0, amount := 500 }]
  cachedReports :=
    [{ key := "1:0", windowStart := 0, body := "\x7b\"food\":500\x7d", expiresAt := 600000 }]
  nextCategory := 2
  nextExpense := 2

/-- A machine with such tables, and a service that knows another rate. -/
def sampleMachine (store : Store) (now : Int) : Machine where
  home :=
    { path := "home"
      isPresent := true
      config := some
        "\x7b\"app_name\":\"spendbook\",\"config_version\":1,\"currencies\":[\"RUB\",\"USD\"]\x7d"
      database := .file { versions := some [1], tables := some store } }
  now
  service :=
    { responses :=
        [{ status := ⟨200⟩
           body := "\x7b\"success\":true,\"rates\":\x7b\"USD\":2\x7d\x7d" }] }

theorem inOrder_sampleStore : sampleStore.InOrder 1 where
  reached := rfl
  sound :=
    { ascending := List.pairwise_singleton _ _
      categories_lt := by
        intro row member
        cases List.mem_singleton.1 member
        decide
      expenses_lt := by
        intro row member
        cases List.mem_singleton.1 member
        decide
      filed := by
        intro row member
        cases List.mem_singleton.1 member
        exact ⟨_, List.mem_singleton_self _, rfl, rfl⟩ }
  ascending := List.pairwise_singleton _ _
  below := nofun
  streams := nofun

/-- What was printed, unless there was an error. -/
def messages (results : List (Outcome Output)) : List (Option String) :=
  results.map fun result => (result.map Output.message).toOption

end Machine
end ExpenseLedger
