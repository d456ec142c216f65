import ExpenseLedger.Proofs.Users.Separation
import ExpenseLedger.Proofs.Worker.Delivery
import Mathlib.Data.Set.Finite.Lattice

/-!
# Commands for everybody, and users who have nothing

A worker hands messages out and takes them away. That is no user's business: like all commands that
are about nobody in particular it leaves machines that look alike where it finds such machines, and
gives nothing to a user of whom there is nothing in the tables (`Machine.ForEverybody`). Nor does
anybody else's command. There are always such users, since the tables are finite.
-/

namespace ExpenseLedger

namespace Store

/-! ## Users who have nothing -/

/-- Nothing in the tables belongs to a user. -/
structure Lacks (store : Store) (user : Int) : Prop where
  noRow : store.user? user = none
  categories : ∀ row ∈ store.categories, row.user ≠ user
  expenses : ∀ row ∈ store.expenses, row.user ≠ user
  reports : ∀ row ∈ store.cachedReports, CacheKey.inRangeOf user row.key = false

namespace Lacks

variable {store after : Store} {user : Int}

/-- Who has nothing sees nothing. -/
theorem viewOf_eq (lacks : store.Lacks user) (now : Int) :
    store.viewOf user now = { user := none, categories := [], expenses := [], reports := [] } := by
  have categories : store.categories.filter (fun row => decide (row.user = user)) = [] :=
    List.filter_eq_nil_iff.2 fun row member own =>
      lacks.categories row member (of_decide_eq_true own)
  have expenses : store.expenses.filter (fun row => decide (row.user = user)) = [] :=
    List.filter_eq_nil_iff.2 fun row member own =>
      lacks.expenses row member (of_decide_eq_true own)
  have reports : store.cachedReports.filter (isLiveFor user now) = [] := by
    refine List.filter_eq_nil_iff.2 fun row member live => ?_
    unfold isLiveFor at live
    rw [lacks.reports row member] at live
    cases live
  unfold viewOf
  rw [lacks.noRow, categories, expenses, reports]
  rfl

theorem of_same (lacks : store.Lacks user) (same : store.SameHoldings after) :
    after.Lacks user where
  noRow := by
    unfold user?
    rw [same.users]
    exact lacks.noRow
  categories := same.categories ▸ lacks.categories
  expenses := same.expenses ▸ lacks.expenses
  reports := same.cachedReports ▸ lacks.reports

theorem withLimitsRestored (lacks : store.Lacks user) : store.withLimitsRestored.Lacks user where
  noRow := by
    rw [user?_withLimitsRestored, lacks.noRow]
    rfl
  categories := lacks.categories
  expenses := lacks.expenses
  reports := lacks.reports

/-- What is changed for others is not given to the user. -/
theorem changes {owner now : Int} {count : Nat} (h : Changes owner now count store after)
    (different : owner ≠ user) (lacks : store.Lacks user) : after.Lacks user := by
  have foreign {row : CachedReport} (theirs : CacheKey.inRangeOf owner row.key = true) :
      CacheKey.inRangeOf user row.key = false := by
    cases own : CacheKey.inRangeOf user row.key
    · rfl
    · exact absurd (CacheKey.eq_of_inRangeOf theirs own) different
  induction h with
  | userPut row own =>
    exact { lacks with noRow := (user?_putUser_of_ne (own.trans_ne different)).trans lacks.noRow }
  | erased =>
    exact { lacks with
      noRow := (user?_withoutUser_of_ne different.symm).trans lacks.noRow
      categories := fun row member => lacks.categories row (List.mem_filter.1 member).1
      expenses := fun row member => lacks.expenses row (List.mem_filter.1 member).1 }
  | categoryMade name =>
    refine { lacks with categories := fun row member => ?_ }
    rcases List.mem_append.1 member with old | new
    · exact lacks.categories row old
    · rw [List.mem_singleton.1 new]
      exact different
  | expenseBooked booked own =>
    refine { lacks with expenses := fun row member => ?_ }
    rcases List.mem_append.1 member with old | new
    · exact lacks.expenses row old
    · rw [List.mem_singleton.1 new]
      exact own.trans_ne different
  | reportsDropped =>
    exact { lacks with
      reports := fun row member => lacks.reports row (List.mem_filter.1 member).1 }
  | reportKept kept own =>
    refine { lacks with reports := fun row member => ?_ }
    rcases Rows.mem_put member with rfl | old
    · exact foreign own
    · exact lacks.reports row (List.mem_filter.1 old).1
  | trans _ _ ih ih' => exact ih' (ih lacks)
  | _ => exact { lacks with }

end Lacks

/-- Whoever is erased, with all reports, has nothing. -/
theorem lacks_erased (store : Store) (user : Int) :
    ((store.withoutUser user).withoutReports user).Lacks user where
  noRow := user?_withoutUser_self store user
  categories := fun _ member => of_decide_eq_true (List.mem_filter.1 member).2
  expenses := fun _ member => (of_decide_eq_true (List.mem_filter.1 member).2).1
  reports := fun row member => by simpa using (List.mem_filter.1 member).2

/-- Those who have something are no more than there are rows. -/
theorem finite_setOf_not_lacks (store : Store) : {user | ¬store.Lacks user}.Finite := by
  have keepers : (⋃ row ∈ {row | row ∈ store.cachedReports},
      {user | CacheKey.inRangeOf user row.key = true}).Finite :=
    Set.Finite.biUnion (List.finite_toSet _) fun row _ =>
      Set.Subsingleton.finite fun _ own _ theirs => CacheKey.eq_of_inRangeOf own theirs
  refine ((List.finite_toSet (store.users.map User.id ++ store.categories.map Category.user ++
    store.expenses.map Expense.user)).union keepers).subset fun user has => ?_
  by_contra absent
  simp only [Set.mem_union, Set.mem_ofPred_eq, List.mem_append, List.mem_map, Set.mem_iUnion,
    not_or, not_exists, not_and] at absent
  obtain ⟨⟨⟨users, categories⟩, expenses⟩, reports⟩ := absent
  refine has ⟨?_, categories, expenses, fun row member => ?_⟩
  · cases found : store.user? user with
    | none => rfl
    | some row => exact absurd (user?_id found) (users row (Rows.get?_eq_some found).1)
  · exact Bool.eq_false_iff.2 (reports row member)

/-- There is somebody else of whom neither store has anything. -/
theorem exists_stranger (store other : Store) (owner : Int) :
    ∃ user, user ≠ owner ∧ store.Lacks user ∧ other.Lacks user := by
  obtain ⟨user, stranger⟩ := (((finite_setOf_not_lacks store).union
    (finite_setOf_not_lacks other)).union (Set.finite_singleton owner)).exists_notMem
  simp only [Set.mem_union, Set.mem_ofPred_eq, Set.mem_singleton_iff, not_or, not_not] at stranger
  exact ⟨user, stranger.2, stranger.1⟩

/-! ## Working off a queue -/

/-- Messages have been handed out or have gone, and nothing else is different. -/
def WorkedOff (store after : Store) : Prop :=
  ∃ messages, after = { store with messages } ∧
    ∀ row ∈ messages, ∃ old ∈ store.messages, old.seq = row.seq ∧ old.owner = row.owner

namespace WorkedOff

variable {store middle after : Store}

theorem refl (store : Store) : store.WorkedOff store :=
  ⟨store.messages, rfl, fun row member => ⟨row, member, rfl, rfl⟩⟩

theorem trans (first : store.WorkedOff middle) (second : middle.WorkedOff after) :
    store.WorkedOff after := by
  obtain ⟨messages, rfl, old⟩ := first
  obtain ⟨messages', rfl, old'⟩ := second
  refine ⟨messages', rfl, fun row member => ?_⟩
  obtain ⟨between, inMiddle, seq, owner⟩ := old' row member
  obtain ⟨first, inStore, seq', owner'⟩ := old between inMiddle
  exact ⟨first, inStore, seq'.trans seq, owner'.trans owner⟩

theorem withClaim {row : QueuedMessage} (member : row ∈ store.messages) (consumer : Nat)
    (now : Int) : store.WorkedOff (store.withClaim row consumer now) := by
  refine ⟨_, rfl, fun other inAfter => ?_⟩
  rcases mem_withClaim.1 inAfter with ⟨old, -⟩ | ⟨rfl, -⟩
  · exact ⟨other, old, rfl, rfl⟩
  · exact ⟨row, member, rfl, rfl⟩

theorem withoutHeld (store : Store) (receipt : Int) (consumer : Nat) :
    store.WorkedOff (store.withoutHeld receipt consumer) :=
  ⟨_, rfl, fun row member => ⟨row, (List.mem_filter.1 member).1, rfl, rfl⟩⟩

theorem sameHoldings (worked : store.WorkedOff after) : store.SameHoldings after := by
  obtain ⟨messages, rfl, -⟩ := worked
  exact ⟨rfl, rfl, rfl, rfl⟩

theorem currencies (worked : store.WorkedOff after) : after.currencies = store.currencies := by
  obtain ⟨messages, rfl, -⟩ := worked
  rfl

theorem inOrder {process : Nat} (worked : store.WorkedOff after)
    (inOrder : store.InOrder process) : after.InOrder process := by
  obtain ⟨messages, rfl, old⟩ := worked
  refine { inOrder with
    sound := inOrder.sound.of_same ⟨rfl, rfl, rfl, rfl⟩
    below := fun row member => ?_
    streams := fun row member consumer own => ?_ }
  · obtain ⟨before, inStore, seq, -⟩ := old row member
    rw [← seq]
    exact inOrder.below before inStore
  · obtain ⟨before, inStore, -, owner⟩ := old row member
    exact inOrder.streams before inStore consumer (owner.trans own)

theorem roomFor {count : Nat} (worked : store.WorkedOff after) (room : store.RoomFor count) :
    after.RoomFor count := by
  obtain ⟨messages, rfl, -⟩ := worked
  exact ⟨room.categories, room.expenses, room.messages⟩

/-- Nobody sees what a worker does. -/
theorem alike {store' after' : Store} {user now : Int} (worked : store.WorkedOff after)
    (worked' : store'.WorkedOff after') (alike : Alike user now store store') :
    Alike user now after after' where
  reached := by
    obtain ⟨messages, rfl, -⟩ := worked
    exact alike.reached
  reached' := by
    obtain ⟨messages, rfl, -⟩ := worked'
    exact alike.reached'
  currencies := by
    rw [worked.currencies, worked'.currencies, alike.currencies]
  view := by
    rw [worked.sameHoldings.viewOf_eq, worked'.sameHoldings.viewOf_eq, alike.view]

end WorkedOff
end Store

namespace Worker

variable (queue : QueueHandle) {callback : Callback} (keeps : callback.KeepsBooks)

include keeps

theorem workedOff_handle (delivery : Delivery) (desk : Desk) :
    desk.books.store.WorkedOff (handle queue callback delivery desk).2.books.store := by
  have same : (answer callback delivery.message desk).2.books = desk.books := by
    unfold answer
    cases prepare desk.books.store delivery.message with
    | error handling => rfl
    | ok reply =>
      have kept := keeps reply desk
      cases answered : callback reply desk with
      | mk result after =>
        rw [answered] at kept
        cases result <;> simp only [answered] <;> exact kept
  unfold handle
  cases answered : answer callback delivery.message desk with
  | mk handling after =>
    rw [answered] at same
    rw [← same]
    simp only
    split
    · rcases settle_eq queue delivery.receipt after with gone | stays
      · rw [gone]
        exact .withoutHeld _ _ _
      · rw [stays]
        exact .refl _
    · exact .refl _

/-- However many deliveries there are, each is claimed and handled. -/
theorem workedOff_run (now : Int) (rounds : Nat) (desk : Desk) :
    desk.books.store.WorkedOff (run queue callback now rounds desk).2.books.store := by
  induction rounds generalizing desk with
  | zero => exact .refl _
  | succ rounds ih =>
    unfold run
    by_cases reached : desk.books.store.reaches [.requests] = true
    · rcases queue.claim_eq now reached with ⟨nothing, -⟩ | ⟨before, row, after, split, -, -, claimed⟩
      · rw [nothing]
        exact .refl _
      · have member : row ∈ desk.books.store.messages := by
          rw [split]
          exact List.mem_append_right _ List.mem_cons_self
        rw [claimed]
        let holding : Desk := { desk with
          books := { desk.books with
            store := desk.books.store.withClaim row queue.consumer now } }
        have handled := workedOff_handle queue keeps
          (row.claimedBy queue.consumer now).toDelivery holding
        exact ((Store.WorkedOff.withClaim member _ _).trans handled).trans (ih _)
    · rw [queue.claim_eq_error now reached]
      exact .refl _

end Worker

/-! ## Commands for everybody -/

/-- A directory that has a database is not made a home again. -/
theorem Home.create_of_present {home : Home} {content : DatabaseFile}
    (isThere : home.isPresent = true) (found : home.database = .file content)
    (file : ConfigFile) (inTime : Bool) : (home.create file inTime).2 = home := by
  obtain ⟨path, isPresent, config, database⟩ := home
  obtain rfl : isPresent = true := isThere
  obtain rfl : database = .file content := found
  unfold create
  cases file.check <;> rfl

namespace Machine

variable {configuration : Configuration} {user : Int} {count : Nat} {machine other : Machine}

/-- Looks the same to every user, and gives nothing to whoever has nothing. -/
structure ForEverybody (act : Configuration → Machine → Outcome Output × Machine) : Prop where
  keeps : ∀ user, KeepsAlike user act
  lacks : ∀ configuration count machine, Settled configuration (count + 1) machine →
    ∀ user, machine.home.store.Lacks user → (act configuration machine).2.home.store.Lacks user

theorem Settled.store_withStore (settled : machine.Settled configuration count) (store : Store) :
    (machine.withStore store).home.store = store :=
  settled.opened.store_withStore store

theorem Settled.mono (settled : machine.Settled configuration count) {fewer : Nat}
    (h : fewer ≤ count) : machine.Settled configuration fewer :=
  { settled with room := settled.room.mono h }

theorem Alike.mono (alike : Alike configuration user count machine other) {fewer : Nat}
    (h : fewer ≤ count) : Alike configuration user fewer machine other :=
  { alike with settled := alike.settled.mono h, settled' := alike.settled'.mono h }

theorem forEverybody_limitResetAll : ForEverybody fun _ machine => machine.onBooks .limitResetAll where
  keeps := keepsAlike_limitResetAll
  lacks := by
    intro configuration count machine settled user lacks
    rw [limitResetAll_left settled.inOrder.reached, settled.store_withStore]
    exact lacks.withLimitsRestored

theorem forEverybody_currencyRefresh :
    ForEverybody fun configuration => currencyRefresh configuration where
  keeps := keepsAlike_currencyRefresh
  lacks := by
    intro configuration count machine settled user lacks
    simp only [currencyRefresh_left]
    cases result : (ExchangeRates.refresh configuration.ratesUrl configuration.file.currencies
        machine.service machine.home.store).1 with
    | error e => exact lacks
    | ok updated =>
      obtain ⟨batch, stored⟩ := ExchangeRates.exists_batch result
      obtain ⟨currencies, isStore⟩ := Store.storeRates_eq_ok stored
      show (machine.withStore updated.2).home.store.Lacks user
      rw [settled.store_withStore, isStore]
      exact lacks.of_same ⟨rfl, rfl, rfl, rfl⟩

theorem forEverybody_currencyList :
    ForEverybody fun configuration =>
      onBooks (.currencyList configuration.file.reference) where
  keeps := by
    intro user configuration count machine other alike
    have settled := alike.settled.mono (Nat.le_succ count)
    have settled' := alike.settled'.mono (Nat.le_succ count)
    have fewer := alike.mono (Nat.le_succ count)
    have same : machine.withStore machine.home.store = machine :=
      congrArg (fun home => { machine with home }) settled.opened.withStore_store
    have same' : other.withStore other.home.store = other :=
      congrArg (fun home => { other with home }) settled'.opened.withStore_store
    show Alike _ _ _ (machine.withStore machine.home.store) (other.withStore other.home.store)
    rw [same, same']
    exact fewer
  lacks := by
    intro configuration count machine settled user lacks
    show (machine.withStore machine.home.store).home.store.Lacks user
    rw [settled.store_withStore]
    exact lacks

/-! ### Workers -/

theorem work_left (configuration : Configuration) (queue : QueueHandle) (machine : Machine) :
    ∃ store, (machine.work configuration queue).2 = machine.withStore store ∧
      machine.home.store.WorkedOff store :=
  ⟨_, rfl, Worker.workedOff_run queue
    (callbackTo_keepsBooks configuration.callbackAddress false) _ _ _⟩

theorem Settled.workedOff (settled : machine.Settled configuration count) {store : Store}
    (worked : machine.home.store.WorkedOff store) :
    (machine.withStore store).Settled configuration count := by
  refine settled.withStore_of (fun currency member => ?_) (worked.inOrder settled.inOrder)
    (worked.roomFor settled.room)
  unfold Store.currency?
  rw [worked.currencies]
  exact settled.opened.knows currency member

theorem beginDuties_left (configuration : Configuration) (duties : WorkerDuties)
    (machine : Machine) :
    machine.beginDuties configuration duties =
      if duties.refreshRates then (machine.currencyRefresh configuration).2 else machine := by
  unfold beginDuties refreshTimes refreshTimes currencyRefresh
  rfl

/-- What a worker does first looks the same to everybody. -/
theorem Alike.beginDuties (alike : Alike configuration user (count + 1) machine other)
    (duties : WorkerDuties) :
    Alike configuration user count (machine.beginDuties configuration duties)
      (other.beginDuties configuration duties) := by
  rw [beginDuties_left, beginDuties_left]
  split
  · exact keepsAlike_currencyRefresh user configuration count machine other alike
  · exact alike.mono (Nat.le_succ count)

theorem Alike.refl (settled : machine.Settled configuration count) (user : Int) :
    Alike configuration user count machine machine :=
  ⟨settled, settled, rfl, rfl, rfl, rfl, settled.inOrder.reached, settled.inOrder.reached, rfl, rfl⟩

theorem forEverybody_worker (duties : WorkerDuties) :
    ForEverybody fun configuration machine =>
      let queue := machine.openQueue false
      let (count, machine) := (machine.beginDuties configuration duties).work configuration queue
      (.ok (workerOutput count), machine) where
  keeps := by
    intro user configuration count machine other alike
    have begun := alike.beginDuties duties
    obtain ⟨store, left, worked⟩ := work_left configuration (machine.openQueue false)
      (machine.beginDuties configuration duties)
    obtain ⟨store', left', worked'⟩ := work_left configuration (other.openQueue false)
      (other.beginDuties configuration duties)
    simp only [left, left']
    exact begun.withStore (begun.settled.workedOff worked) (begun.settled'.workedOff worked')
      (worked.alike worked' begun.store)
  lacks := by
    intro configuration count machine settled user lacks
    have begun := (Alike.refl settled user).beginDuties duties
    have stillLacks : (machine.beginDuties configuration duties).home.store.Lacks user := by
      rw [beginDuties_left]
      split
      · exact forEverybody_currencyRefresh.lacks configuration count machine settled user lacks
      · exact lacks
    obtain ⟨store, left, worked⟩ := work_left configuration (machine.openQueue false)
      (machine.beginDuties configuration duties)
    simp only [left, begun.settled.store_withStore]
    exact stillLacks.of_same worked.sameHoldings

/-- A command that is about no user is run once the home is open, and is for everybody. Only making a
home is different. -/
theorem exists_act_of_forEverybody {command : Command} (about : command.user? = none)
    (notInit : ∀ existOk, command ≠ .init existOk) :
    ∃ act, (∀ machine : Machine, machine.run command 0 = machine.withProcess.loaded act) ∧
      ForEverybody act := by
  cases command <;> cases about
  case init existOk => exact absurd rfl (notInit existOk)
  case limitResetAll => exact ⟨_, run_of_waits rfl, forEverybody_limitResetAll⟩
  case currencyList => exact ⟨_, run_of_waits rfl, forEverybody_currencyList⟩
  case currencyRefresh => exact ⟨_, run_of_waits rfl, forEverybody_currencyRefresh⟩
  case worker refreshRates resetLimits =>
    exact ⟨_, run_of_waits rfl, forEverybody_worker { refreshRates, resetLimits }⟩

/-! ### Making a home that is there -/

/-- A home that has a database is not made again, but may be opened. -/
theorem run_init_of_present {content : DatabaseFile} (isThere : machine.home.isPresent = true)
    (found : machine.home.database = .file content) (existOk : Bool) :
    (machine.run (.init existOk) 0).2 = machine.withProcess ∨
      (machine.run (.init existOk) 0).2 = machine.opening := by
  rw [run_of_waits rfl]
  show (init existOk machine.withProcess).2 = _ ∨ (init existOk machine.withProcess).2 = _
  unfold init
  split
  · exact Or.inr rfl
  · refine Or.inl ?_
    show { machine.withProcess with home := (machine.home.create {} machine.isInTime).2 } =
      machine.withProcess
    rw [Home.create_of_present isThere found]
    rfl

/-- A home that can be opened is not made again. -/
theorem run_init (opens : machine.home.load.1 = .ok configuration) (existOk : Bool) :
    (machine.run (.init existOk) 0).2 = machine.withProcess ∨
      (machine.run (.init existOk) 0).2 = machine.opening := by
  obtain ⟨configured, file, found⟩ : machine.home.configuration = .ok configuration ∧
      ∃ file, machine.home.database = .file file := by
    rcases machine.home.load_cases with ⟨e, failed⟩ | ⟨configuration', content, configured, entry,
      ⟨e, -, failed⟩ | ⟨store, -, loaded⟩⟩
    · rw [failed] at opens
      cases opens
    · rw [failed] at opens
      cases opens
    · rw [loaded] at opens
      cases opens
      obtain ⟨file, -, found, -, -⟩ := DatabaseEntry.load_eq_ok entry
      exact ⟨configured, file, found⟩
  have isThere : machine.home.isPresent = true := by
    unfold Home.configuration at configured
    split at configured
    · cases configured
    · next there => simpa using there
  exact run_init_of_present isThere found existOk

end Machine
end ExpenseLedger
