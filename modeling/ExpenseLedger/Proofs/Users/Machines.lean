import ExpenseLedger.Proofs.Users.Reports

/-!
# Machines that look alike to a user

Every command opens the home first, which shows nowhere: a home that has been opened opens again in
the same way (`Home.load_load`). Two machines are `Machine.Twins` for a user if their homes open
alike, and look alike to the user from then on. Commands of others leave twins on either side;
commands of the user, and those that are about everybody, leave twins if they are run on both.
-/

namespace ExpenseLedger

theorem Store.SameHoldings.viewOf_eq {store after : Store} (same : store.SameHoldings after)
    (user now : Int) : after.viewOf user now = store.viewOf user now := by
  unfold viewOf user? seen categoryName? category?
  rw [same.users, same.categories, same.expenses, same.cachedReports]

/-- A home that has been opened opens again in the same way. -/
theorem Home.load_load {home : Home}
    (reached : ∀ configuration, home.load.1 = .ok configuration →
      home.load.2.store.outOfReach = []) : home.load.2.load = home.load := by
  cases loaded : home.load with
  | mk result after =>
    rw [loaded] at reached
    cases result with
    | error e => exact load_of_error loaded
    | ok configuration => exact (opened_of_load loaded).load (reached configuration rfl)

namespace Machine

variable {configuration : Configuration} {user : Int} {count : Nat} {machine other : Machine}

/-! ## Machines whose homes are open -/

namespace Settled

theorem withStore_of (settled : machine.Settled configuration count) {store : Store} {fewer : Nat}
    (knows : Home.Knows configuration.file store) (inOrder : store.InOrder machine.started)
    (room : store.RoomFor fewer) : (machine.withStore store).Settled configuration fewer := by
  have isStore : (machine.withStore store).home.store = store :=
    settled.opened.store_withStore store
  refine ⟨settled.opened.withStore knows, ?_, ?_⟩
  · rw [isStore]
    exact inOrder
  · rw [isStore]
    exact room

/-- The tables may be changed for a user. -/
theorem withStore (settled : machine.Settled configuration (count + 1)) {store : Store}
    {owner : Int} (changes : machine.home.store.ChangesOnce owner machine.now store) :
    (machine.withStore store).Settled configuration count := by
  obtain ⟨given, once, changes⟩ := changes
  refine settled.withStore_of (fun currency member => ?_) (changes.inOrder settled.inOrder)
    (changes.roomFor (settled.room.mono (by omega)))
  unfold Store.currency?
  rw [changes.currencies]
  exact settled.opened.knows currency member

theorem load (settled : machine.Settled configuration count) :
    machine.home.load = (.ok configuration, machine.home) :=
  settled.opened.load settled.inOrder.reached

theorem withLimitsRestored (settled : machine.Settled configuration (count + 1)) :
    (machine.withStore machine.home.store.withLimitsRestored).Settled configuration count := by
  obtain ⟨opened, inOrder, room⟩ := settled
  have fewer := room.mono (Nat.le_succ count)
  exact withStore_of ⟨opened, inOrder, room⟩ opened.knows
    { inOrder with sound := inOrder.sound.of_same (Store.sameEntries_withLimitsRestored _) }
    ⟨fewer.categories, fewer.expenses, fewer.messages⟩

/-- Rates that are stored leave no configured currency unknown. -/
theorem withRates (settled : machine.Settled configuration (count + 1)) {batch : List Currency}
    {after : Store} (stored : machine.home.store.storeRates batch = .ok after) :
    (machine.withStore after).Settled configuration count := by
  have knows : Home.Knows configuration.file after := fun currency member =>
    Store.isSome_currency?_storeRates stored (Or.inl (settled.opened.knows currency member))
  obtain ⟨opened, inOrder, room⟩ := settled
  have fewer := room.mono (Nat.le_succ count)
  obtain ⟨currencies, rfl⟩ := Store.storeRates_eq_ok stored
  exact withStore_of ⟨opened, inOrder, room⟩ knows
    { inOrder with sound := inOrder.sound.of_same ⟨rfl, rfl, rfl, rfl⟩ }
    ⟨fewer.categories, fewer.expenses, fewer.messages⟩

end Settled

/-- Open homes whose tables look alike to a user. -/
structure Alike (configuration : Configuration) (user : Int) (count : Nat)
    (machine other : Machine) : Prop where
  settled : machine.Settled configuration count
  settled' : other.Settled configuration count
  now : other.now = machine.now
  behind : other.behind = machine.behind
  late : (other.home.load false).1 = (machine.home.load false).1
  service : other.service = machine.service
  store : Store.Alike user machine.now machine.home.store other.home.store

namespace Alike

theorem able (alike : Alike configuration user (count + 1) machine other) :
    machine.home.store.Able ∧ other.home.store.Able :=
  ⟨alike.settled.inOrder.able (alike.settled.room.mono (Nat.le_add_left 1 count)),
    alike.settled'.inOrder.able (alike.settled'.room.mono (Nat.le_add_left 1 count))⟩

theorem instant_eq (alike : Alike configuration user count machine other) :
    other.instant = machine.instant :=
  congrArg Instant.ofMillis alike.now

theorem books (alike : Alike configuration user count machine other) :
    Books.Alike user machine.now machine.books other.books :=
  ⟨rfl, rfl, alike.store⟩

theorem withStore {store store' : Store} {fewer : Nat}
    (alike : Alike configuration user count machine other)
    (settled : (machine.withStore store).Settled configuration fewer)
    (settled' : (other.withStore store').Settled configuration fewer)
    (left : Store.Alike user machine.now store store') :
    Alike configuration user fewer (machine.withStore store) (other.withStore store') := by
  have late := ((other.home.load_late_withStore store').trans alike.late).trans
    (machine.home.load_late_withStore store).symm
  refine ⟨settled, settled', alike.now, alike.behind, late, alike.service, ?_⟩
  have isStore : (machine.withStore store).home.store = store :=
    alike.settled.opened.store_withStore store
  have isStore' : (other.withStore store').home.store = store' :=
    alike.settled'.opened.store_withStore store'
  rw [isStore, isStore']
  exact left

/-- Changes for somebody else on one side. -/
theorem withStore_left {owner : Int} {store : Store} (different : user ≠ owner)
    (alike : Alike configuration user (count + 1) machine other)
    (changes : machine.home.store.ChangesOnce owner machine.now store) :
    Alike configuration user count (machine.withStore store) other := by
  have settled := alike.settled.withStore changes
  have isStore : (machine.withStore store).home.store = store :=
    alike.settled.opened.store_withStore store
  obtain ⟨given, -, changes⟩ := changes
  have fewer := alike.settled'.room.mono (Nat.le_succ count)
  have late := alike.late.trans (machine.home.load_late_withStore store).symm
  refine ⟨settled, { alike.settled' with room := fewer }, alike.now, alike.behind, late,
    alike.service, ?_⟩
  rw [isStore]
  exact
    { reached := (changes.inOrder alike.settled.inOrder).reached
      reached' := alike.store.reached'
      currencies := alike.store.currencies.trans changes.currencies.symm
      view := alike.store.view.trans (changes.viewOf_of_ne alike.settled.inOrder different).symm }

end Alike

/-! ## What is done in a home that is open -/

/-- Changes what is a user's own. -/
def ActsFor (user : Int) (act : Configuration → Machine → Outcome Output × Machine) : Prop :=
  ∀ configuration count machine, Settled configuration (count + 1) machine →
    ∃ store, (act configuration machine).2 = machine.withStore store ∧
      machine.home.store.ChangesOnce user machine.now store

/-- Leaves machines that look alike to a user where it finds such machines. -/
def KeepsAlike (user : Int) (act : Configuration → Machine → Outcome Output × Machine) : Prop :=
  ∀ configuration count machine other, Alike configuration user (count + 1) machine other →
    Alike configuration user count (act configuration machine).2 (act configuration other).2

/-- Tells the same on machines that look alike to a user. -/
def AnswersAlike (user : Int) (act : Configuration → Machine → Outcome Output × Machine) : Prop :=
  ∀ configuration count machine other, Alike configuration user (count + 1) machine other →
    (act configuration other).1 = (act configuration machine).1

/-- What is done for a user and looks the same to the user. -/
structure Serves (user : Int) (act : Configuration → Machine → Outcome Output × Machine) :
    Prop where
  acts : ActsFor user act
  keeps : KeepsAlike user act
  answers : AnswersAlike user act

/-- A command on the books that makes a user's own changes and respects what the user sees. -/
theorem serves_onBooks {command : Configuration → Instant → BookCommand}
    (changes : ∀ configuration present now,
      (command configuration present).ChangesOnlyFor user now)
    (respects : ∀ configuration present now, (command configuration present).Respects user now) :
    Serves user fun configuration machine =>
      machine.onBooks (command configuration machine.instant) := by
  have changed {configuration : Configuration} {count : Nat} {machine : Machine}
      (settled : machine.Settled configuration count) (present : Instant) :=
    changes configuration present machine.now machine.books ⟨rfl, settled.inOrder.reached⟩
  have respected {configuration : Configuration} {count : Nat} {machine other : Machine}
      (alike : Alike configuration user (count + 1) machine other) :=
    respects configuration machine.instant machine.now _ _ alike.books alike.able.1 alike.able.2
  refine ⟨fun configuration count machine settled => ⟨_, rfl, changed settled _⟩,
    fun configuration count machine other alike => ?_,
    fun configuration count machine other alike => ?_⟩
  · rw [alike.instant_eq]
    exact alike.withStore (alike.settled.withStore (changed alike.settled machine.instant))
      (alike.settled'.withStore (changed alike.settled' machine.instant)) (respected alike).2.store
  · rw [alike.instant_eq]
    exact (respected alike).1

theorem serves_localReport (user : Int) (period : Period) :
    Serves user fun configuration => localReport configuration user period := by
  refine ⟨fun configuration count machine settled => localReport_changes settled user period,
    fun configuration count machine other alike => ?_,
    fun configuration count machine other alike => ?_⟩
  · obtain ⟨-, store, store', left, left', storesAlike⟩ := localReport_alike alike.settled
      alike.settled' alike.now alike.store period
    obtain ⟨after, same, changes⟩ := localReport_changes alike.settled user period
    obtain ⟨after', same', changes'⟩ := localReport_changes alike.settled' user period
    have settled := alike.settled.withStore changes
    have settled' := alike.settled'.withStore changes'
    rw [← same, left] at settled
    rw [← same', left'] at settled'
    rw [left, left']
    exact alike.withStore settled settled' storesAlike
  · exact (localReport_alike alike.settled alike.settled' alike.now alike.store period).1

theorem actsFor_beginReport (user : Int) (period : Period) :
    ActsFor user fun configuration machine =>
      ((machine.beginReport configuration user period).2.later 0).conclude
        (machine.beginReport configuration user period).1 :=
  fun _ _ _ settled => beginReport_changes settled user period

theorem limitResetAll_left (reached : machine.home.store.outOfReach = []) :
    (machine.onBooks .limitResetAll).2 =
      machine.withStore machine.home.store.withLimitsRestored := by
  unfold onBooks BookCommand.limitResetAll BookCommand.after Books.resetAllLimits
    Store.resetAllLimits books
  rw [Store.reach_of_outOfReach reached]
  rfl

theorem keepsAlike_limitResetAll (user : Int) :
    KeepsAlike user fun _ machine => machine.onBooks .limitResetAll := by
  intro configuration count machine other alike
  rw [limitResetAll_left alike.store.reached, limitResetAll_left alike.store.reached']
  exact alike.withStore alike.settled.withLimitsRestored alike.settled'.withLimitsRestored
    alike.store.withLimitsRestored

theorem currencyRefresh_left (configuration : Configuration) (machine : Machine) :
    (machine.currencyRefresh configuration).2 =
      let asked := ExchangeRates.refresh configuration.ratesUrl configuration.file.currencies
        machine.service machine.home.store
      let machine := { machine with service := asked.2 }
      match asked.1 with
      | .ok (_, store) => machine.withStore store
      | .error _ => machine := by
  unfold currencyRefresh refresh
  cases ExchangeRates.refresh configuration.ratesUrl configuration.file.currencies machine.service
    machine.home.store with
  | mk outcome peer => cases outcome <;> rfl

theorem keepsAlike_currencyRefresh (user : Int) :
    KeepsAlike user fun configuration => currencyRefresh configuration := by
  intro configuration count machine other alike
  obtain ⟨agree, service⟩ := alike.store.refresh configuration.ratesUrl
    configuration.file.currencies machine.service
  have spent {machine : Machine} (settled : machine.Settled configuration (count + 1))
      (service : Http.Peer) : Settled configuration count { machine with service } :=
    ⟨settled.opened, settled.inOrder, settled.room.mono (Nat.le_succ count)⟩
  have served (service : Http.Peer) :
      Alike configuration user count { machine with service } { other with service } :=
    ⟨spent alike.settled service, spent alike.settled' service, alike.now, alike.behind, alike.late,
      rfl, alike.store⟩
  simp only [currencyRefresh_left, alike.service, service]
  generalize (ExchangeRates.refresh _ _ _ machine.home.store).2 = peer
  cases result : (ExchangeRates.refresh configuration.ratesUrl configuration.file.currencies
      machine.service machine.home.store).1 <;>
    cases result' : (ExchangeRates.refresh configuration.ratesUrl configuration.file.currencies
      machine.service other.home.store).1 <;>
    rw [result, result'] at agree <;> cases agree
  · exact served peer
  · next same =>
    obtain ⟨batch, stored⟩ := ExchangeRates.exists_batch result
    obtain ⟨batch', stored'⟩ := ExchangeRates.exists_batch result'
    have settled := alike.settled.withRates stored
    have settled' := alike.settled'.withRates stored'
    exact (served peer).withStore ⟨settled.opened, settled.inOrder, settled.room⟩
      ⟨settled'.opened, settled'.inOrder, settled'.room⟩ same.2

/-! ## Machines at rest -/

/-- Once the home can be opened its tables are in order for the next process, and there are
numbers for so many more rows. -/
def Ready (count : Nat) (machine : Machine) : Prop :=
  ∀ configuration, machine.home.load.1 = .ok configuration →
    machine.home.load.2.store.InOrder (machine.started + 1) ∧
      machine.home.load.2.store.RoomFor count

/-- The machine with one more process, which has opened the home or has given up. -/
def opening (machine : Machine) : Machine :=
  machine.withProcess.load.2

/-- Homes that open alike, in time or not, and look alike to a user. -/
structure Twins (user : Int) (count : Nat) (machine other : Machine) : Prop where
  now : other.now = machine.now
  behind : other.behind = machine.behind
  service : other.service = machine.service
  result : ∀ inTime, (other.home.load inTime).1 = (machine.home.load inTime).1
  currencies : other.home.load.2.store.currencies = machine.home.load.2.store.currencies
  view : other.home.store.viewOf user machine.now = machine.home.store.viewOf user machine.now
  ready : machine.Ready count
  ready' : other.Ready count

theorem Ready.mono (ready : machine.Ready count) {fewer : Nat} (h : fewer ≤ count) :
    machine.Ready fewer :=
  fun configuration opens =>
    ⟨(ready configuration opens).1, (ready configuration opens).2.mono h⟩

/-- Tables that are in order before the home is opened are so afterwards. -/
theorem ready_of_inOrder (inOrder : machine.home.store.InOrder (machine.started + 1))
    (room : machine.home.store.RoomFor count) : machine.Ready count := by
  intro configuration opens
  obtain ⟨currencies, isStore⟩ := Home.exists_currencies_load inOrder.reached
  rw [isStore]
  exact ⟨inOrder.withCurrencies currencies, room.categories, room.expenses, room.messages⟩

/-! ### Opening -/

/-- A home is left as it is, or is opened. -/
theorem opening_home (machine : Machine) :
    machine.opening.home = machine.home ∨ machine.opening.home = machine.home.load.2 := by
  show (machine.home.load machine.isInTime).2 = _ ∨ (machine.home.load machine.isInTime).2 = _
  cases machine.isInTime with
  | true => exact Or.inr rfl
  | false =>
    obtain ⟨e, late⟩ := machine.home.load_late
    rw [late]
    exact Or.inl rfl

theorem opening_home_of_inTime (inTime : machine.isInTime = true) :
    machine.opening.home = machine.home.load.2 := by
  show (machine.home.load machine.isInTime).2 = _
  rw [inTime]

/-- Only what is open in time can be opened. -/
theorem load_eq_ok (opens : machine.load.1 = .ok configuration) :
    machine.isInTime = true ∧ machine.home.load.1 = .ok configuration := by
  have opens : (machine.home.load machine.isInTime).1 = .ok configuration := opens
  cases inTime : machine.isInTime with
  | true =>
    rw [inTime] at opens
    exact ⟨rfl, opens⟩
  | false =>
    obtain ⟨e, late⟩ := machine.home.load_late
    rw [inTime, late] at opens
    cases opens

theorem load_of_inTime (inTime : machine.isInTime = true) : machine.load.1 = machine.home.load.1 := by
  show (machine.home.load machine.isInTime).1 = _
  rw [inTime]

theorem opened_opening (opens : machine.load.1 = .ok configuration) :
    machine.opening.home.Opened configuration := by
  obtain ⟨inTime, opens⟩ := load_eq_ok opens
  rw [opening_home_of_inTime inTime]
  exact Home.opened_of_load (Prod.ext opens rfl)

theorem sameHoldings_opening (machine : Machine) :
    machine.home.store.SameHoldings machine.opening.home.store := by
  rcases machine.opening_home with same | opened
  · rw [same]
    exact ⟨rfl, rfl, rfl, rfl⟩
  · rw [opened]
    exact machine.home.sameHoldings_load

theorem viewOf_opening (machine : Machine) (user now : Int) :
    machine.opening.home.store.viewOf user now = machine.home.store.viewOf user now :=
  machine.sameHoldings_opening.viewOf_eq user now

/-- A machine is left as it is opened, or as the command leaves it. -/
theorem loaded_eq (machine : Machine)
    (act : Configuration → Machine → Outcome Output × Machine) :
    machine.withProcess.loaded act =
      match machine.load.1 with
      | .ok configuration => act configuration machine.opening
      | .error e => (.error e, machine.opening) := by
  have opened : machine.withProcess.load = (machine.load.1, machine.opening) := rfl
  unfold loaded
  rw [opened]
  cases machine.load.1 <;> rfl

theorem loaded_of_error {e : Error} (failed : machine.load.1 = .error e)
    (act : Configuration → Machine → Outcome Output × Machine) :
    machine.withProcess.loaded act = (.error e, machine.opening) := by
  rw [loaded_eq, failed]

theorem loaded_of_ok (opens : machine.load.1 = .ok configuration)
    (act : Configuration → Machine → Outcome Output × Machine) :
    machine.withProcess.loaded act = act configuration machine.opening := by
  rw [loaded_eq, opens]

namespace Ready

theorem load_load (ready : machine.Ready count) :
    machine.opening.home.load = machine.home.load := by
  rcases machine.opening_home with same | opened
  · rw [same]
  · rw [opened]
    exact Home.load_load fun configuration opens => (ready configuration opens).1.reached

/-- A home that has been opened opens in the same way, in time or not. -/
theorem result (ready : machine.Ready count) (inTime : Bool) :
    (machine.opening.home.load inTime).1 = (machine.home.load inTime).1 := by
  cases inTime with
  | true => rw [ready.load_load]
  | false =>
    rcases machine.opening_home with same | opened
    · rw [same]
    · rw [opened]
      exact machine.home.load_late_load

theorem opening (ready : machine.Ready count) : machine.opening.Ready count := by
  intro configuration opens
  rw [ready.load_load] at opens ⊢
  obtain ⟨inOrder, room⟩ := ready configuration opens
  exact ⟨inOrder.mono (Nat.le_succ _), room⟩

theorem settled (ready : machine.Ready count) (opens : machine.load.1 = .ok configuration) :
    machine.opening.Settled configuration count := by
  obtain ⟨inTime, opensHome⟩ := load_eq_ok opens
  obtain ⟨inOrder, room⟩ := ready configuration opensHome
  have isHome := opening_home_of_inTime inTime
  exact ⟨opened_opening opens, isHome ▸ inOrder, isHome ▸ room⟩

end Ready

theorem Settled.ready (settled : machine.Settled configuration count) : machine.Ready count := by
  intro configuration' opens
  rw [settled.load]
  exact ⟨settled.inOrder.mono (Nat.le_succ _), settled.room⟩

namespace Twins

theorem refl (ready : machine.Ready count) : Twins user count machine machine :=
  ⟨rfl, rfl, rfl, fun _ => rfl, rfl, rfl, ready, ready⟩

/-- The clocks agree, so the homes open alike. -/
theorem load_eq (twins : Twins user count machine other) : other.load.1 = machine.load.1 := by
  have inTime : other.isInTime = machine.isInTime := by
    unfold isInTime
    rw [twins.behind]
  show (other.home.load other.isInTime).1 = (machine.home.load machine.isInTime).1
  rw [inTime]
  exact twins.result _

theorem opening (twins : Twins user count machine other) :
    Twins user count machine.opening other.opening where
  now := twins.now
  behind := twins.behind
  service := twins.service
  result inTime := by
    rw [twins.ready.result, twins.ready'.result]
    exact twins.result inTime
  currencies := by
    rw [twins.ready.load_load, twins.ready'.load_load]
    exact twins.currencies
  view := by
    rw [viewOf_opening, viewOf_opening]
    exact twins.view
  ready := twins.ready.opening
  ready' := twins.ready'.opening

/-- Opening the home on one side shows nowhere. -/
theorem of_opening (twins : Twins user count machine other.opening) (ready : other.Ready count) :
    Twins user count machine other where
  now := twins.now
  behind := twins.behind
  service := twins.service
  result inTime := by rw [← twins.result, ready.result]
  currencies := by rw [← twins.currencies, ready.load_load]
  view := by rw [← twins.view, viewOf_opening]
  ready := twins.ready
  ready' := ready

theorem mono (twins : Twins user count machine other) {fewer : Nat} (h : fewer ≤ count) :
    Twins user fewer machine other :=
  { twins with ready := twins.ready.mono h, ready' := twins.ready'.mono h }

theorem alike (twins : Twins user count machine other)
    (opens : machine.load.1 = .ok configuration) :
    Alike configuration user count machine.opening other.opening := by
  have settled := twins.ready.settled opens
  have settled' := twins.ready'.settled (twins.load_eq.trans opens)
  have currencies : other.opening.home.store.currencies = machine.opening.home.store.currencies := by
    have same := twins.currencies
    rwa [← opening_home_of_inTime (load_eq_ok opens).1,
      ← opening_home_of_inTime (load_eq_ok (twins.load_eq.trans opens)).1] at same
  exact ⟨settled, settled', twins.now, twins.behind, twins.opening.result false, twins.service,
    settled.inOrder.reached, settled'.inOrder.reached, currencies, twins.opening.view⟩

end Twins

theorem Alike.twins (alike : Alike configuration user count machine other) :
    Twins user count machine other where
  now := alike.now
  behind := alike.behind
  service := alike.service
  result inTime := by
    cases inTime with
    | true => rw [alike.settled.load, alike.settled'.load]
    | false => exact alike.late
  currencies := by
    rw [alike.settled.load, alike.settled'.load]
    exact alike.store.currencies
  view := alike.store.view
  ready := alike.settled.ready
  ready' := alike.settled'.ready

namespace Twins

variable {act : Configuration → Machine → Outcome Output × Machine}

/-- What looks the same to the user is done on both sides. -/
theorem loaded (twins : Twins user (count + 1) machine other) (keeps : KeepsAlike user act) :
    Twins user count (machine.withProcess.loaded act).2 (other.withProcess.loaded act).2 := by
  rw [loaded_eq, loaded_eq, twins.load_eq]
  cases opens : machine.load.1 with
  | error e => exact twins.opening.mono (Nat.le_succ count)
  | ok configuration =>
    exact (keeps configuration count _ _ (twins.alike opens)).twins

theorem loaded_result (twins : Twins user (count + 1) machine other)
    (answers : AnswersAlike user act) :
    (other.withProcess.loaded act).1 = (machine.withProcess.loaded act).1 := by
  rw [loaded_eq, loaded_eq, twins.load_eq]
  cases opens : machine.load.1 with
  | error e => rfl
  | ok configuration => exact answers configuration count _ _ (twins.alike opens)

/-- Something is done for somebody else on one side. -/
theorem loaded_left {owner : Int} (twins : Twins user (count + 1) machine other)
    (acts : ActsFor owner act) (different : user ≠ owner) :
    Twins user count (machine.withProcess.loaded act).2 other := by
  have fewer := twins.ready'.mono (Nat.le_succ count)
  refine of_opening ?_ fewer
  cases opens : machine.load.1 with
  | error e =>
    rw [loaded_of_error opens]
    exact twins.opening.mono (Nat.le_succ count)
  | ok configuration =>
    have alike := twins.alike opens
    obtain ⟨store, left, changes⟩ := acts configuration count _ alike.settled
    rw [loaded_of_ok opens, left]
    exact (alike.withStore_left different changes).twins

/-- Time passes on both sides. -/
theorem moveClock (twins : Twins user count machine other) {millis : Int} (forward : 0 ≤ millis) :
    Twins user count (machine.moveClock millis) (other.moveClock millis) where
  now := congrArg (· + millis) twins.now
  behind := congrArg (fun behind : Nat => ((behind : Int) - millis).toNat) twins.behind
  service := twins.service
  result := twins.result
  currencies := twins.currencies
  view := by
    have later : machine.now ≤ machine.now + millis := by omega
    show other.home.store.viewOf user (machine.now + millis) =
      machine.home.store.viewOf user (machine.now + millis)
    rw [Store.viewOf_of_le later, Store.viewOf_of_le later, twins.view]
  ready := twins.ready
  ready' := twins.ready'

end Twins
end Machine
end ExpenseLedger
