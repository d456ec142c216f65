import ExpenseLedger.Commands.Run
import ExpenseLedger.Proofs.Home.Opening
import ExpenseLedger.Proofs.Users.Commands

/-!
# Reports of a user on tables that look alike

A report that brings its own worker comes to the same on tables that look alike to its user: its
request is the only message in a stream of its own, whatever waits in the queue besides. A report
that waits for a worker elsewhere, and is interrupted, leaves no more than its request behind.
-/

namespace ExpenseLedger

namespace ReportJob

variable {job other : ReportJob} {now later : Int} {store store' : Store}

/-- Reports of one user since one instant, which may differ in their ids and in who answers them. -/
structure SameFor (job other : ReportJob) : Prop where
  user : other.user = job.user
  since : other.since = job.since
  cacheTtl : other.cacheTtl = job.cacheTtl
  delay : other.delay = job.delay

theorem SameFor.isOk_decode_encode (same : job.SameFor other) :
    (Message.encode other.call.request).decode.isOk =
      (Message.encode job.call.request).decode.isOk := by
  have request : other.call.request = { job.call.request with id := other.id } := by
    unfold ReportCall.request call
    simp only [same.user, same.since]
  rw [request, Message.isOk_decode_encode]

theorem answer_alike (same : job.SameFor other) (alike : Store.Alike job.user later store store')
    (able : store.Able) (able' : store'.Able) (rate : Rate) :
    (other.answer later rate store').1 = (job.answer later rate store).1 ∧
      Store.Alike job.user later (job.answer later rate store).2
        (other.answer later rate store').2 := by
  have made : Report.aggregate (other.reply store').expenses rate =
      Report.aggregate (job.reply store).expenses rate := by
    unfold reply
    rw [same.user, same.since]
    exact alike.aggregate_eq able.sound able'.sound _ rate
  unfold answer
  rw [same.isOk_decode_encode, made]
  split
  · cases Report.aggregate (job.reply store).expenses rate with
    | error e => exact ⟨rfl, alike.served⟩
    | ok report =>
      refine ⟨rfl, ?_⟩
      simp only
      rw [stored_eq, stored_eq, same.user, same.since, same.cacheTtl,
        alike.cacheRow_eq able able']
      exact alike.served.withReport able.ascending able'.ascending _
  · exact ⟨rfl, alike.served⟩

/-- On tables that look alike to its user a report comes to the same. -/
theorem outcome_alike (same : job.SameFor other) (alike : Store.Alike job.user now store store')
    (able : store.Able) (able' : store'.Able) :
    (other.outcome now store').1 = (job.outcome now store).1 ∧
      Store.Alike job.user (now + job.delay) (job.outcome now store).2
        (other.outcome now store').2 := by
  have later : Store.Alike job.user (now + job.delay) store store' := alike.later (by omega)
  have missed : (other.outcomeOfMiss (now + job.delay) store').1 =
        (job.outcomeOfMiss (now + job.delay) store).1 ∧
      Store.Alike job.user (now + job.delay) (job.outcomeOfMiss (now + job.delay) store).2
        (other.outcomeOfMiss (now + job.delay) store').2 := by
    unfold outcomeOfMiss
    rw [same.user, alike.rateOf_eq]
    cases store.rateOf job.user with
    | error e => exact ⟨rfl, later⟩
    | ok rate => exact answer_alike same later able able' rate
  unfold outcome
  rw [same.user, same.since, same.delay, alike.cachedReport_eq able able']
  cases store.cachedReport now job.user job.since with
  | error e => exact missed
  | ok cached =>
    cases cached with
    | none => exact missed
    | some report => exact ⟨rfl, later⟩

end ReportJob

/-! ## The report command on a machine -/

namespace Machine

@[simp] theorem later_zero (machine : Machine) : machine.later 0 = machine := by
  simp [later, moveClock]

/-- The home is open for the process that was started last, with tables that are in order, and
there are numbers for so many more rows. -/
structure Settled (configuration : Configuration) (count : Nat) (machine : Machine) : Prop where
  opened : machine.home.Opened configuration
  inOrder : machine.home.store.InOrder machine.started
  room : machine.home.store.RoomFor count

/-- The report that a command makes with a worker of its own. -/
def localJob (configuration : Configuration) (user : Int) (period : Period) (machine : Machine) :
    ReportJob :=
  (machine.reportCommand configuration user period (machine.openQueue true)).toJob
    (.inProcess machine.started) 0

/-- What is printed of what a report came to. -/
def printed (job : ReportJob) (period : Period) (outcome : Outcome Report × Store) :
    Outcome Output := do
  let report ← outcome.1
  let spending ← SpendingReport.ofReport outcome.2 job.user period job.since report
  .ok spending.toOutput

section Local

variable {configuration : Configuration} {count : Nat} {machine : Machine}

theorem Settled.ready_localJob (settled : machine.Settled configuration count) (user : Int)
    (period : Period) :
    (machine.localJob configuration user period).Ready machine.books where
  shared := rfl
  reached := settled.inOrder.reached
  below := settled.inOrder.below
  alone row member own :=
    Nat.lt_irrefl _ (settled.inOrder.streams row member machine.started own)

/-- The report that brings its own worker is made as the tables say. -/
theorem localReport_eq (settled : machine.Settled configuration (count + 1)) (user : Int)
    (period : Period) :
    machine.localReport configuration user period =
      let job := machine.localJob configuration user period
      let outcome := job.outcome machine.now machine.home.store
      (printed job period outcome, machine.withStore outcome.2) := by
  have timely : (machine.localJob configuration user period).delay <
      (machine.localJob configuration user period).timeout := by
    have := Home.reportTimeout_pos settled.opened.configured
    show 0 < configuration.file.reportTimeout * 1000
    omega
  obtain ⟨call, books⟩ := ReportJob.run_eq_outcome timely (settled.ready_localJob user period)
    (fun _ => rfl) settled.room.messages.fits machine.now
  refine (localReport_eq_run configuration user period machine).trans ?_
  unfold endReport ReportCommand.output ReportCommand.store
  simp only [localJob] at call books
  simp only [call, books]
  rfl

/-- What is printed of a report reads what its user sees. -/
theorem printed_alike {job other : ReportJob} (same : job.SameFor other) (period : Period)
    {now : Int} {outcome outcome' : Outcome Report × Store} (result : outcome'.1 = outcome.1)
    (alike : Store.Alike job.user now outcome.2 outcome'.2) :
    printed other period outcome' = printed job period outcome := by
  unfold printed SpendingReport.ofReport
  simp only [result, same.user, same.since, alike.user_eq, alike.currency_eq]

theorem localReport_alike {other : Machine} {user : Int}
    (settled : machine.Settled configuration (count + 1))
    (settled' : other.Settled configuration (count + 1))
    (now : other.now = machine.now)
    (alike : Store.Alike user machine.now machine.home.store other.home.store) (period : Period) :
    (other.localReport configuration user period).1 =
        (machine.localReport configuration user period).1 ∧
      ∃ store store', (machine.localReport configuration user period).2 = machine.withStore store ∧
        (other.localReport configuration user period).2 = other.withStore store' ∧
        Store.Alike user machine.now store store' := by
  have same : (machine.localJob configuration user period).SameFor
      (other.localJob configuration user period) := by
    refine ⟨rfl, ?_, rfl, rfl⟩
    show (period.windowStart? other.instant).getD other.instant =
      (period.windowStart? machine.instant).getD machine.instant
    unfold instant
    rw [now]
  have able := settled.inOrder.able (settled.room.mono (Nat.le_add_left 1 count))
  have able' := settled'.inOrder.able (settled'.room.mono (Nat.le_add_left 1 count))
  obtain ⟨result, left⟩ := ReportJob.outcome_alike same alike able able'
  rw [localReport_eq settled, localReport_eq settled']
  simp only [now]
  refine ⟨printed_alike same period result left, _, _, rfl, rfl, ?_⟩
  have noDelay : machine.now + ((machine.localJob configuration user period).delay : Int) =
      machine.now := Int.add_zero _
  rwa [noDelay] at left

theorem localReport_changes (settled : machine.Settled configuration (count + 1)) (user : Int)
    (period : Period) :
    ∃ store, (machine.localReport configuration user period).2 = machine.withStore store ∧
      machine.home.store.ChangesOnce user machine.now store := by
  rw [localReport_eq settled]
  refine ⟨_, rfl, ?_⟩
  have changes := (machine.localJob configuration user period).outcome_changes machine.now
    machine.home.store
  have noDelay : machine.now + ((machine.localJob configuration user period).delay : Int) =
      machine.now := Int.add_zero _
  rwa [noDelay] at changes

/-- The report that a command makes with a worker elsewhere. -/
def remoteJob (configuration : Configuration) (user : Int) (period : Period) (machine : Machine) :
    ReportJob :=
  (machine.reportCommand configuration user period (machine.openQueue false)).toJob
    (.overHttp machine.started 0 configuration.callbackAddress) 0

/-- A report for a worker elsewhere ends at once, or waits once its request is sent. -/
theorem run_remote (settled : machine.Settled configuration count) (user : Int)
    (period : Period) :
    let command := machine.reportCommand configuration user period (machine.openQueue false)
    let job := machine.remoteJob configuration user period
    (∃ result, command.run machine.now =
      { command with call := command.call.toStage (.finished result) }) ∨
    ∃ rate, command.run machine.now =
      { command with
        call := command.call.toStage (.waiting rate (machine.now + job.timeout))
        desk := job.asked machine.now machine.books } := by
  intro command job
  have opened : machine.books.Open := ⟨rfl, settled.inOrder.reached⟩
  have timely : job.delay < job.timeout := by
    have := Home.reportTimeout_pos settled.opened.configured
    show 0 < configuration.file.reportTimeout * 1000
    omega
  have run : command.run machine.now =
      { command with
        call := (job.call.run job.settings machine.now { books := machine.books }).1
        desk := (job.call.run job.settings machine.now { books := machine.books }).2 } := rfl
  by_cases hit : ∃ report,
      machine.books.store.cachedReport machine.now job.user job.since = .ok (some report)
  · obtain ⟨report, found⟩ := hit
    left
    rw [run, ReportJob.begin_of_hit opened found]
    exact ⟨_, rfl⟩
  · rcases ReportJob.begin_of_miss timely opened fun report found => hit ⟨report, found⟩ with
      ⟨e, -, begun⟩ | ⟨rate, -, -, begun⟩
    · left
      rw [run, begun]
      exact ⟨_, rfl⟩
    · right
      rw [run, begun]
      exact ⟨rate, rfl⟩

theorem beginReport_eq {ran : ReportCommand}
    (free : ¬machine.listeners.any configuration.callbackAddress.overlaps) {user : Int}
    {period : Period}
    (run : (machine.reportCommand configuration user period (machine.openQueue false)).run
      machine.now = ran) :
    machine.beginReport configuration user period =
      (match ran.call.result? with
        | some _ => .ended ran.output
        | none => .waiting { command := ran, address := configuration.callbackAddress },
        machine.withStore ran.store) := by
  refine (if_neg free).trans ?_
  rw [run]
  cases ran.call.result? <;> rfl

/-- Whoever waits in vain and is interrupted leaves the tables as they are. -/
theorem concludeReport_store (opened : machine.home.Opened configuration) {command : ReportCommand}
    {call : ReportCall} {rate : Rate} {deadline : Int} (address : Net.SocketAddress)
    (waiting : command.call = call.toStage (.waiting rate deadline))
    (noMail : command.desk.mail = []) (early : machine.now < deadline) :
    ((machine.withStore command.store).concludeReport { command, address }).2 =
      machine.withStore command.store := by
  have same : command.withStore (machine.withStore command.store).home.store = command := by
    rw [show (machine.withStore command.store).home.store = command.store from
      opened.store_withStore command.store]
    rfl
  have stays : command.run machine.now = command := by
    have notLate : ¬deadline ≤ machine.now := Int.not_le.2 early
    have fixed : command.call.step command.settings machine.now command.desk =
        (command.call, command.desk) := by
      rw [waiting]
      simp only [ReportCall.step, ReportCall.toStage, Desk.mailFor?, noMail, List.find?_nil,
        notLate, if_false]
    have run : command.call.run command.settings machine.now command.desk =
        (command.call, command.desk) := ReportCall.steps_of_fixed fixed _
    simp only [ReportCommand.run, run]
  have left : command.interrupt.store = command.store := by
    simp only [ReportCommand.interrupt, ReportCommand.store, waiting]
    rfl
  unfold concludeReport
  rw [same]
  show (Machine.withStore _ (command.run machine.now).interrupt.store) = _
  rw [stays, left]
  exact congrArg (fun home => { machine with home })
    (machine.home.withStore_withStore command.store command.store)

/-- A report that is begun, and interrupted before anybody answers it. -/
theorem beginReport_changes (settled : machine.Settled configuration (count + 1))
    (user : Int) (period : Period) :
    ∃ store,
      (((machine.beginReport configuration user period).2.later 0).conclude
        (machine.beginReport configuration user period).1).2 = machine.withStore store ∧
      machine.home.store.ChangesOnce user machine.now store := by
  have unchanged : machine.withStore machine.home.store = machine :=
    congrArg (fun home => { machine with home }) settled.opened.withStore_store
  have nothing : machine.home.store.ChangesOnce user machine.now machine.home.store :=
    ⟨0, Nat.zero_le 1, .nothing⟩
  rw [later_zero]
  by_cases taken : machine.listeners.any configuration.callbackAddress.overlaps
  · have begun : machine.beginReport configuration user period = (.ended _, machine) :=
      if_pos taken
    rw [begun]
    exact ⟨_, unchanged.symm, nothing⟩
  · rcases run_remote settled user period with ⟨result, run⟩ | ⟨rate, run⟩
    · rw [beginReport_eq taken run]
      exact ⟨_, rfl, nothing⟩
    · let job := machine.remoteJob configuration user period
      rw [beginReport_eq taken run]
      refine ⟨_, concludeReport_store settled.opened configuration.callbackAddress rfl rfl ?_,
        1, Nat.le_refl 1, .requestSent (job.row machine.now machine.home.store) rfl rfl⟩
      have := Home.reportTimeout_pos settled.opened.configured
      show machine.now < machine.now + ((configuration.file.reportTimeout * 1000 : Nat) : Int)
      omega

end Local

end Machine
end ExpenseLedger
