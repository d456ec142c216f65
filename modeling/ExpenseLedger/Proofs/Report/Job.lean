import ExpenseLedger.Proofs.Cache
import ExpenseLedger.Proofs.Callback
import ExpenseLedger.Proofs.Report.Totals
import ExpenseLedger.Proofs.Report.World

/-!
# A report from beginning to end

A report with nobody in between: the call publishes its request, a worker, in the same process or
behind the callback endpoint, works off the queue some time later, and the call goes on with the
answer. `ReportJob.run_effect` says all that may come of it.
-/

namespace ExpenseLedger

/-- Who answers a report: a worker of the same process, or a worker of another process that posts
its reply to the endpoint at an address. Processes are known by numbers. -/
inductive Answering where
  | inProcess (process : Nat)
  | overHttp (process worker : Nat) (address : Net.SocketAddress)

namespace Answering

/-- The queue as the reporting process opens it. -/
def publisher : Answering → QueueHandle
  | .inProcess process => { consumer := process, isPrivate := true }
  | .overHttp process _ _ => { consumer := process }

/-- The queue as the process of the worker opens it. -/
def worker : Answering → QueueHandle
  | .inProcess process => { consumer := process, isPrivate := true }
  | .overHttp _ worker _ => { consumer := worker }

/-- How the worker pushes its reply back. -/
def callback : Answering → Callback
  | .inProcess _ => .toDesk
  | .overHttp _ _ address => Machine.callbackTo address true

theorem owner_worker (answering : Answering) :
    answering.worker.owner = answering.publisher.owner := by
  cases answering <;> rfl

/-- Either way the reply gets to the desk. -/
theorem callback_eq (answering : Answering) {reply : Reply} (fits : reply.Fits) (desk : Desk) :
    answering.callback reply desk = Callback.toDesk reply desk := by
  cases answering with
  | inProcess process => rfl
  | overHttp process worker address => exact Machine.callbackTo_eq_toDesk address fits desk

end Answering

/-- A report that is asked for; the worker takes `delay` milliseconds to answer. -/
structure ReportJob where
  id : Uuid
  user : Int
  since : Instant
  cacheTtl : Nat
  timeout : Nat
  delay : Nat
  answering : Answering

namespace ReportJob

/-- How the report is made. -/
def settings (job : ReportJob) : ReportSettings :=
  { publisher := .queue job.answering.publisher, cacheTtl := job.cacheTtl, timeout := job.timeout }

/-- The call as it begins. -/
def call (job : ReportJob) : ReportCall :=
  { id := job.id, user := job.user, since := job.since }

/-- The call and the desk after the report has been made. -/
def run (job : ReportJob) (now : Int) (books : Books) : ReportCall × Desk :=
  let (call, desk) := job.call.run job.settings now { books }
  let (_, desk) := Worker.workOff job.answering.worker job.answering.callback (now + job.delay) desk
  let (call, desk) := call.run job.settings (now + job.delay) desk
  call.cancel desk

/-- The types of the numbers hold them, and the worker answers in time. -/
structure WellFormed (job : ReportJob) : Prop where
  user : FitsInt64 job.user
  since : job.since.Representable
  timely : job.delay < job.timeout

end ReportJob

namespace ReportCall

variable {settings : ReportSettings} {now : Int} {call next : ReportCall} {desk after : Desk}

theorem steps_of_step (h : call.step settings now desk = (next, after)) (count : Nat) :
    steps settings now (count + 1) call desk = steps settings now count next after := by
  rw [steps, h]

theorem steps_of_fixed (h : call.step settings now desk = (call, desk)) (count : Nat) :
    steps settings now count call desk = (call, desk) := by
  induction count with
  | zero => rfl
  | succ count ih => rw [steps_of_step h, ih]

theorem step_of_published {rate : Rate} (registered : call.stage = .registered rate)
    (published : desk.publish settings.publisher now call.request = (.ok (), after)) :
    call.step settings now desk =
      (call.toStage (.waiting rate (now + settings.timeout)), after) := by
  unfold step
  simp only [registered, published]

theorem step_of_unpublished {rate : Rate} {e : Error} (registered : call.stage = .registered rate)
    (failed : desk.publish settings.publisher now call.request = (.error e, after)) :
    call.step settings now desk = call.finish (.error e) after := by
  unfold step
  simp only [registered, failed]

end ReportCall

/-- The report cache is the shared one, and everything can be reached. -/
structure Books.Open (books : Books) : Prop where
  shared : books.cache = .shared
  reached : books.store.outOfReach = []

/-- The report cache is the shared one, everything can be reached, and nobody waits in the
queue. -/
structure Books.Idle (books : Books) : Prop where
  shared : books.cache = .shared
  reached : books.store.outOfReach = []
  noMessages : books.store.messages = []

theorem Books.Idle.isOpen {books : Books} (idle : books.Idle) : books.Open :=
  ⟨idle.shared, idle.reached⟩

namespace ReportJob

/-- The books are open, and nobody waits in the stream of the report. -/
structure Ready (job : ReportJob) (books : Books) : Prop extends Books.Open books where
  below : ∀ row ∈ books.store.messages, row.seq < books.store.nextMessage
  alone : ∀ row ∈ books.store.messages, row.owner ≠ job.answering.publisher.owner

theorem ready_of_idle (job : ReportJob) {books : Books} (idle : books.Idle) : job.Ready books where
  toOpen := idle.isOpen
  below := by simp [idle.noMessages]
  alone := by simp [idle.noMessages]

section Run

variable {job : ReportJob} {now : Int} {books : Books}

/-- The row that the request of the report makes in the queue. -/
def row (job : ReportJob) (now : Int) (store : Store) : QueuedMessage :=
  store.nextRow (.encode job.call.request) job.answering.publisher.owner now

/-- The desk while the report waits. -/
def asked (job : ReportJob) (now : Int) (books : Books) : Desk where
  books := { books with store := books.store.withRow (job.row now books.store) }
  waiters := [{ id := job.id, user := job.user }]
  published := [job.call.request]

theorem cachedReport_eq (now user : Int) (since : Instant) (opened : books.Open) :
    books.cachedReport now user since =
      (books.store.cachedReport now user since >>= fun report => .ok (report, books)) := by
  unfold Books.cachedReport
  rw [opened.shared]

/-- A report that is found in the cache ends the call at once. -/
theorem begin_of_hit (opened : books.Open) {report : Report}
    (hit : books.store.cachedReport now job.user job.since = .ok (some report)) :
    job.call.run job.settings now { books } =
      (job.call.toStage (.finished (.ok report)), { books }) := by
  have found : books.cachedReport now job.user job.since = .ok (some report, books) := by
    rw [cachedReport_eq now job.user job.since opened, hit]
    rfl
  have first : job.call.step job.settings now { books } =
      (job.call.toStage (.finished (.ok report)), { books }) := by
    simp only [ReportCall.step, call, found]
    rfl
  exact (ReportCall.steps_of_step first _).trans (ReportCall.steps_of_fixed rfl _)

/-- A call that misses goes on to the user. -/
theorem step_of_miss (job : ReportJob) (opened : books.Open)
    (miss : ∀ report, books.store.cachedReport now job.user job.since ≠ .ok (some report)) :
    job.call.step job.settings now { books } = (job.call.toStage .missed, { books }) := by
  have found := cachedReport_eq now job.user job.since opened
  cases looked : books.store.cachedReport now job.user job.since with
  | error e =>
    rw [looked] at found
    simp only [ReportCall.step, call, found, bind, Except.bind]
  | ok report =>
    cases report with
    | some report => exact absurd looked (miss report)
    | none =>
      rw [looked] at found
      simp only [ReportCall.step, call, found, bind, Except.bind]

theorem step_of_read {row : User} (read : books.store.user job.user = .ok row) :
    (job.call.toStage .missed).step job.settings now { books } =
      (job.call.toStage (.userRead row.currency), { books }) := by
  simp only [ReportCall.step, ReportCall.toStage, call, read]

theorem step_of_rated {currency : Int} {rate : Rate}
    (rated : books.store.rate currency = .ok rate) :
    (job.call.toStage (.userRead currency)).step job.settings now { books } =
      (job.call.toStage (.rated rate), { books }) := by
  simp only [ReportCall.step, ReportCall.toStage, rated]

/-- The desk while the call is registered and its request is not yet sent. -/
def registered (job : ReportJob) (books : Books) : Desk where
  books := books
  waiters := [{ id := job.id, user := job.user }]

theorem step_of_registering (job : ReportJob) (now : Int) (books : Books) (rate : Rate) :
    (job.call.toStage (.rated rate)).step job.settings now { books } =
      (job.call.toStage (.registered rate), job.registered books) :=
  rfl

theorem steps_of_error {stage : CallStage} {desk : Desk} {e : Error}
    (ended : (job.call.toStage stage).step job.settings now desk =
      (job.call.toStage (.finished (.error e)), { books })) (count : Nat) :
    ReportCall.steps job.settings now (count + 1) (job.call.toStage stage) desk =
      (job.call.toStage (.finished (.error e)), { books }) := by
  rw [ReportCall.steps_of_step ended, ReportCall.steps_of_fixed rfl]

/-- A user or a rate that cannot be read ends the call. -/
theorem begin_of_unrated (opened : books.Open)
    (miss : ∀ report, books.store.cachedReport now job.user job.since ≠ .ok (some report))
    {e : Error} (unrated : books.store.rateOf job.user = .error e) :
    job.call.run job.settings now { books } =
      (job.call.toStage (.finished (.error e)), { books }) := by
  unfold ReportCall.run ReportCall.stepCount
  rw [ReportCall.steps_of_step (step_of_miss job opened miss)]
  cases read : books.store.user job.user with
  | error e' =>
    obtain rfl : e' = e := by simpa [Store.rateOf, read, bind, Except.bind] using unrated
    refine steps_of_error ?_ _
    simp only [ReportCall.step, ReportCall.toStage, call, read]
    rfl
  | ok row =>
    have unrated : books.store.rate row.currency = .error e := by
      simpa [Store.rateOf, read, bind, Except.bind] using unrated
    rw [ReportCall.steps_of_step (step_of_read read)]
    refine steps_of_error ?_ _
    simp only [ReportCall.step, ReportCall.toStage, unrated]
    rfl

/-- Once the user and the rate are read, all steps up to the registration are taken. -/
theorem begin_of_rated (opened : books.Open)
    (miss : ∀ report, books.store.cachedReport now job.user job.since ≠ .ok (some report))
    {rate : Rate} (isRated : books.store.rateOf job.user = .ok rate) :
    ∃ count, job.call.run job.settings now { books } =
      ReportCall.steps job.settings now (count + 1) (job.call.toStage (.registered rate))
        (job.registered books) := by
  obtain ⟨row, read, rated⟩ := Outcome.bind_eq_ok.1 isRated
  refine ⟨3, ?_⟩
  unfold ReportCall.run ReportCall.stepCount
  rw [ReportCall.steps_of_step (step_of_miss job opened miss),
    ReportCall.steps_of_step (step_of_read read), ReportCall.steps_of_step (step_of_rated rated),
    ReportCall.steps_of_step (step_of_registering job now books rate)]

/-- A request that the queue does not take ends the call. -/
theorem step_of_refused (job : ReportJob) {rate : Rate} {e : Error}
    (refused : job.answering.publisher.publish job.call.request now books.store =
      (.error e, books.store)) :
    (job.call.toStage (.registered rate)).step job.settings now (job.registered books) =
      (job.call.toStage (.finished (.error e)), { books }) := by
  have failed : (job.registered books).publish job.settings.publisher now job.call.request =
      (.error e, job.registered books) := by
    show Desk.publish _ (.queue job.answering.publisher) now job.call.request = _
    simp only [Desk.publish, registered, refused]
  have stage : (job.call.toStage (.registered rate)).stage = .registered rate := rfl
  rw [ReportCall.step_of_unpublished stage failed]
  simp [ReportCall.finish, Desk.leave, ReportCall.toStage, call, registered]

/-- A call whose request the queue has taken waits. -/
theorem step_of_sent (job : ReportJob) {rate : Rate}
    (sent : job.answering.publisher.publish job.call.request now books.store =
      (.ok (), books.store.withRow (job.row now books.store))) :
    (job.call.toStage (.registered rate)).step job.settings now (job.registered books) =
      (job.call.toStage (.waiting rate (now + job.timeout)), job.asked now books) := by
  have published : (job.registered books).publish job.settings.publisher now job.call.request =
      (.ok (), job.asked now books) := by
    show Desk.publish _ (.queue job.answering.publisher) now job.call.request = _
    simp only [Desk.publish, registered, sent]
    rfl
  exact ReportCall.step_of_published rfl published

/-- Before its deadline a call without an answer stays as it is. -/
theorem step_of_waiting (job : ReportJob) (rate : Rate) {deadline later : Int} {desk : Desk}
    (noMail : desk.mail = []) (early : later < deadline) :
    (job.call.toStage (.waiting rate deadline)).step job.settings later desk =
      (job.call.toStage (.waiting rate deadline), desk) := by
  have notLate : ¬deadline ≤ later := Int.not_le.2 early
  simp only [ReportCall.step, ReportCall.toStage, Desk.mailFor?, noMail, List.find?_nil, notLate,
    if_false]

/-- A call that misses waits for an answer to its request, unless the user or the rate cannot be
read or the queue takes no request. -/
theorem begin_of_miss (timely : job.delay < job.timeout) (opened : books.Open)
    (miss : ∀ report, books.store.cachedReport now job.user job.since ≠ .ok (some report)) :
    (∃ e, (books.store.rateOf job.user = .error e ∨ ¬FitsInt64 books.store.nextMessage) ∧
      job.call.run job.settings now { books } =
        (job.call.toStage (.finished (.error e)), { books })) ∨
    (∃ rate, books.store.rateOf job.user = .ok rate ∧ FitsInt64 books.store.nextMessage ∧
      job.call.run job.settings now { books } =
        (job.call.toStage (.waiting rate (now + job.timeout)), job.asked now books)) := by
  cases rated : books.store.rateOf job.user with
  | error e => exact Or.inl ⟨e, Or.inl rfl, begin_of_unrated opened miss rated⟩
  | ok rate =>
    obtain ⟨count, begun⟩ := begin_of_rated opened miss rated
    rw [begun]
    rcases job.answering.publisher.publish_eq job.call.request now books.store with
      ⟨⟨-, fits⟩, sent⟩ | ⟨refused, e, failed⟩
    · right
      refine ⟨rate, rfl, fits, ?_⟩
      rw [ReportCall.steps_of_step (step_of_sent job sent),
        ReportCall.steps_of_fixed (step_of_waiting job rate rfl (by omega))]
    · left
      have unfit : ¬FitsInt64 books.store.nextMessage := fun fits =>
        refused ⟨Store.reaches_of_outOfReach opened.reached _, fits⟩
      exact ⟨e, Or.inr unfit, steps_of_error (step_of_refused job failed) count⟩

/-- The tables after the request has come and gone. -/
def served (store : Store) : Store :=
  { store with nextMessage := store.nextMessage + 1 }

/-- The reply to the request of the report. -/
def reply (job : ReportJob) (store : Store) : Reply where
  id := job.id
  user := job.user
  expenses := store.expenseRows job.user job.since.seconds

/-- The desk after the worker has answered. -/
def answered (job : ReportJob) (books : Books) : Desk where
  books := { books with store := served books.store }
  mail := [job.reply books.store]
  published := [job.call.request]

/-- The desk after the worker has dropped a request that it cannot read. -/
def unanswered (job : ReportJob) (books : Books) : Desk where
  books := { books with store := served books.store }
  waiters := [{ id := job.id, user := job.user }]
  published := [job.call.request]

/-- The request is the only one in its stream, so the worker claims it. -/
theorem claim_asked (ready : job.Ready books) (later : Int) :
    job.answering.worker.claim later (job.asked now books).books.store =
      .ok (some ((job.row now books.store).claimedBy job.answering.worker.consumer later).toDelivery,
        (job.asked now books).books.store.withClaim (job.row now books.store)
          job.answering.worker.consumer later) := by
  have own : ∀ other ∈ (job.asked now books).books.store.messages,
      other.owner = job.answering.publisher.owner → other = job.row now books.store := by
    intro other member same
    rcases List.mem_append.1 member with old | new
    · exact absurd same (ready.alone other old)
    · exact List.mem_singleton.1 new
  have reached : (job.asked now books).books.store.reaches [.requests] = true :=
    Store.reaches_of_outOfReach ready.reached _
  have may : job.answering.worker.mayClaim (job.asked now books).books.store later
      (job.row now books.store) = true := by
    refine QueueHandle.mayClaim_iff.2 ⟨job.answering.owner_worker.symm, ?_, nofun⟩
    intro other member line
    exact Int.le_of_eq (by rw [own other member line.1])
  rcases job.answering.worker.claim_eq later reached with
    ⟨-, none⟩ | ⟨before, row, after, split, mayRow, -, claimed⟩
  · exact absurd may (none _ (List.mem_append_right _ (List.mem_singleton_self _)))
  · have member : row ∈ (job.asked now books).books.store.messages := by
      rw [split]
      exact List.mem_append_right _ List.mem_cons_self
    obtain rfl := own row member
      ((QueueHandle.mayClaim_iff.1 mayRow).1.trans job.answering.owner_worker)
    exact claimed

/-- The stream of the report is empty again, so the worker claims nothing more. -/
theorem claim_of_alone (ready : job.Ready books) (later : Int) {store : Store}
    (reached : store.outOfReach = []) (messages : store.messages = books.store.messages) :
    job.answering.worker.claim later store = .ok (none, store) := by
  rcases job.answering.worker.claim_eq later (Store.reaches_of_outOfReach reached _) with
    ⟨claimed, -⟩ | ⟨before, row, after, split, may, -, -⟩
  · exact claimed
  · have member : row ∈ books.store.messages := by
      rw [← messages, split]
      exact List.mem_append_right _ List.mem_cons_self
    exact absurd ((QueueHandle.mayClaim_iff.1 may).1.trans job.answering.owner_worker)
      (ready.alone row member)

/-- The worker prepares the reply to a request that it can read. -/
theorem prepare_asked (readable : (Message.encode job.call.request).decode.isOk = true)
    {store : Store} (same : Store.SameEntries books.store store) (reached : store.outOfReach = [])
    (now later : Int) :
    Worker.prepare store
      ((job.row now books.store).claimedBy job.answering.worker.consumer later).toDelivery.message =
        .ok (job.reply books.store) := by
  cases decoded : (Message.encode job.call.request).decode with
  | error e =>
    rw [decoded] at readable
    cases readable
  | ok request =>
    obtain ⟨id, user, seconds⟩ := Message.decode_encode_eq_ok decoded
    have read : store.expensesSince request.user request.since =
        .ok (books.store.expenseRows job.user job.since.seconds) := by
      unfold Store.expensesSince
      rw [Store.reach_of_outOfReach reached, same.expenseRows, user, seconds]
      rfl
    refine Worker.prepare_eq_ok.2 ⟨request, _, decoded, read, ?_⟩
    rw [id, user]
    rfl

/-- The desk once the worker has claimed the request. -/
def claimed (job : ReportJob) (now later : Int) (books : Books) : Desk :=
  { job.asked now books with
    books := { books with
      store := (job.asked now books).books.store.withClaim (job.row now books.store)
        job.answering.worker.consumer later } }

theorem deliver_claimed (later : Int) :
    Callback.toDesk (job.reply books.store) (job.claimed now later books) =
      (.ok .delivered, { job.claimed now later books with
        waiters := [], mail := [job.reply books.store] }) := by
  simp [Callback.toDesk, Desk.deliver, Desk.waiter?, claimed, asked, reply]

/-- Acknowledging takes the request out of the queue again. -/
theorem acknowledge_claimed (ready : job.Ready books) (now later : Int) :
    job.answering.worker.acknowledge (job.row now books.store).seq
      (job.claimed now later books).books.store = .ok (served books.store) := by
  have reached : (job.claimed now later books).books.store.reaches [.requests] = true :=
    Store.reaches_of_outOfReach ready.reached _
  have others : ∀ other ∈ books.store.messages,
      decide (other.seq ≠ (job.row now books.store).seq) = true := by
    intro other member
    exact decide_eq_true (Int.ne_of_lt (ready.below other member))
  have messages : (books.store.messages ++ [job.row now books.store]).filter
      (fun other => decide (other.seq ≠ (job.row now books.store).seq)) =
        books.store.messages := by
    rw [List.filter_append, List.filter_eq_self.2 others, List.filter_cons_of_neg (by simp),
      List.filter_nil, List.append_nil]
  rw [job.answering.worker.acknowledge_of_reached _ reached]
  refine congrArg Except.ok ((Store.withoutHeld_withClaim _ _ _ _).trans ?_)
  exact congrArg (fun messages => { books.store with
    messages, nextMessage := books.store.nextMessage + 1 }) messages

theorem settle_claimed (ready : job.Ready books) (now later : Int) {desk : Desk}
    (same : desk.books = (job.claimed now later books).books) :
    Worker.settle job.answering.worker (job.row now books.store).seq desk =
      { desk with books := { books with store := served books.store } } := by
  unfold Worker.settle Books.withStore
  rw [same, acknowledge_claimed ready now later]
  rfl

/-- The worker hands its reply to the desk. -/
theorem handle_readable (readable : (Message.encode job.call.request).decode.isOk = true)
    (ready : job.Ready books)
    (pushes : ∀ desk, job.answering.callback (job.reply books.store) desk =
      Callback.toDesk (job.reply books.store) desk) (now later : Int) :
    (Worker.handle job.answering.worker job.answering.callback
      ((job.row now books.store).claimedBy job.answering.worker.consumer later).toDelivery
      (job.claimed now later books)).2 = job.answered books := by
  have same : Store.SameEntries books.store (job.claimed now later books).books.store :=
    ⟨rfl, rfl, rfl, rfl⟩
  have prepared := prepare_asked readable same ready.reached now later
  have pushed := (pushes (job.claimed now later books)).trans (deliver_claimed later)
  unfold Worker.handle Worker.answer
  simp only [prepared, pushed, Handling.isFinal, if_true]
  exact settle_claimed ready now later rfl

/-- The worker drops a request that it cannot read. -/
theorem handle_unreadable (unreadable : (Message.encode job.call.request).decode.isOk = false)
    (ready : job.Ready books) (now later : Int) :
    (Worker.handle job.answering.worker job.answering.callback
      ((job.row now books.store).claimedBy job.answering.worker.consumer later).toDelivery
      (job.claimed now later books)).2 = job.unanswered books := by
  cases decoded : (Message.encode job.call.request).decode with
  | ok request =>
    rw [decoded] at unreadable
    cases unreadable
  | error e =>
    have dropped : Worker.prepare (job.claimed now later books).books.store
        ((job.row now books.store).claimedBy job.answering.worker.consumer
          later).toDelivery.message = .error (.dropped e) := by
      show Worker.prepare _ (.encode job.call.request) = _
      simp only [Worker.prepare, decoded]
    unfold Worker.handle Worker.answer
    simp only [dropped, Handling.isFinal, if_true]
    exact settle_claimed ready now later rfl

/-- The worker handles the request, and then finds nothing more to claim. -/
theorem workOff_asked (ready : job.Ready books) (now later : Int) {after : Desk}
    (handled : (Worker.handle job.answering.worker job.answering.callback
      ((job.row now books.store).claimedBy job.answering.worker.consumer later).toDelivery
      (job.claimed now later books)).2 = after)
    (left : after.books.store = served books.store) :
    (Worker.workOff job.answering.worker job.answering.callback later (job.asked now books)).2 =
      after := by
  have rounds : (job.asked now books).books.store.messages.length =
      books.store.messages.length + 1 :=
    List.length_append
  have nothing : job.answering.worker.claim later after.books.store =
      .ok (none, after.books.store) := by
    refine claim_of_alone ready later ?_ ?_
    · rw [left]
      exact ready.reached
    · rw [left]
      rfl
  unfold Worker.workOff
  rw [rounds]
  simp only [Worker.run, claim_asked ready later]
  exact (congrArg (fun desk => (Worker.run job.answering.worker job.answering.callback later
    books.store.messages.length desk).2) handled).trans
      (congrArg Prod.snd (Worker.run_of_none nothing _))

/-- The tables after the report has been put into the cache. -/
def stored (job : ReportJob) (later : Int) (report : Report) (store : Store) : Store :=
  { served store with
    cachedReports := Rows.put CachedReport.key
      (store.cacheRow later job.cacheTtl job.user job.since report)
      (store.cachedReports.filter fun row => later < row.expiresAt) }

/-- What comes of a report once its request has been sent, and the tables that it leaves. -/
def answer (job : ReportJob) (later : Int) (rate : Rate) (store : Store) :
    Outcome Report × Store :=
  if (Message.encode job.call.request).decode.isOk then
    match Report.aggregate (job.reply store).expenses rate with
    | .ok report => (.ok report, job.stored later report store)
    | .error e => (.error e, served store)
  else (.error .cancelled, served store)

/-- With its answer the call makes the report and caches it, or fails. -/
theorem end_of_answered (readable : (Message.encode job.call.request).decode.isOk = true)
    (opened : books.Open) (rate : Rate) (deadline later : Int) :
    (job.call.toStage (.waiting rate deadline)).run job.settings later (job.answered books) =
      (job.call.toStage (.finished (job.answer later rate books.store).1),
        { books := { books with store := (job.answer later rate books.store).2 }
          published := [job.call.request] }) := by
  have first : (job.call.toStage (.waiting rate deadline)).step job.settings later
      (job.answered books) =
      (job.call.toStage (.answered rate (job.reply books.store).expenses),
        { books := { books with store := served books.store }
          published := [job.call.request] }) := by
    simp [ReportCall.step, ReportCall.toStage, answered, Desk.mailFor?, reply, call, Desk.leave]
  unfold ReportCall.run ReportCall.stepCount answer
  rw [ReportCall.steps_of_step first, if_pos readable]
  cases made : Report.aggregate (job.reply books.store).expenses rate with
  | error e =>
    refine (ReportCall.steps_of_step ?_ _).trans (ReportCall.steps_of_fixed rfl _)
    simp only [ReportCall.step, ReportCall.toStage, made]
    rfl
  | ok report =>
    have second : (job.call.toStage (.answered rate (job.reply books.store).expenses)).step
        job.settings later
        { books := { books with store := served books.store }, published := [job.call.request] } =
        (job.call.toStage (.aggregated report),
          { books := { books with store := served books.store }
            published := [job.call.request] }) := by
      simp only [ReportCall.step, ReportCall.toStage, made]
    have cached : Books.cacheReport { books with store := served books.store } later job.cacheTtl
        job.user job.since report =
        .ok { books with store := job.stored later report books.store } := by
      unfold Books.cacheReport
      rw [opened.shared]
      have reached : (served books.store).outOfReach = [] := opened.reached
      simp only [Books.withStore, Store.cacheReport_eq reached, bind, Except.bind]
      rfl
    rw [ReportCall.steps_of_step second]
    refine (ReportCall.steps_of_step ?_ _).trans (ReportCall.steps_of_fixed rfl _)
    simp only [ReportCall.step, ReportCall.toStage, settings, call, cached]
    rfl

/-- What may come of a report: it is found in the cache, or not even asked for, or the worker's
answer cannot be made a report, or it is made from the tables and cached. -/
inductive Effect (job : ReportJob) (now : Int) (books : Books) : Outcome Report → Books → Prop
  | hit (report : Report)
      (found : books.store.cachedReport now job.user job.since = .ok (some report)) :
      Effect job now books (.ok report) books
  | unsent (e : Error) (reason : books.store.reportOf job.user job.since = .error e ∨
      ¬FitsInt64 books.store.nextMessage) :
      Effect job now books (.error e) books
  | failed (e : Error) (reason : books.store.reportOf job.user job.since = .error e) :
      Effect job now books (.error e) { books with store := served books.store }
  | made (report : Report) (direct : books.store.reportOf job.user job.since = .ok report) :
      Effect job now books (.ok report)
        { books with store := job.stored (now + job.delay) report books.store }

/-- A call that has ended before it asked leaves the worker nothing to do. -/
theorem run_of_begun (ready : job.Ready books) {result : Outcome Report}
    (begun : job.call.run job.settings now { books } =
      (job.call.toStage (.finished result), { books })) :
    job.run now books = (job.call.toStage (.finished result), { books }) := by
  have nothing : (Worker.workOff job.answering.worker job.answering.callback (now + job.delay)
      { books }).2 = { books } :=
    congrArg Prod.snd (Worker.run_of_none (claim_of_alone ready _ ready.reached rfl) _)
  have stays : (job.call.toStage (.finished result)).run job.settings (now + job.delay) { books } =
      (job.call.toStage (.finished result), { books }) := ReportCall.steps_of_fixed rfl _
  unfold run
  rw [begun]
  simp only [nothing, stays]
  rfl

/-- A call that waits gets its answer, if its request can be read. -/
theorem run_of_waiting (timely : job.delay < job.timeout) (ready : job.Ready books)
    (pushes : ∀ desk, job.answering.callback (job.reply books.store) desk =
      Callback.toDesk (job.reply books.store) desk)
    {rate : Rate} (begun : job.call.run job.settings now { books } =
      (job.call.toStage (.waiting rate (now + job.timeout)), job.asked now books)) :
    (job.run now books).1 =
        job.call.toStage (.finished (job.answer (now + job.delay) rate books.store).1) ∧
      (job.run now books).2.books =
        { books with store := (job.answer (now + job.delay) rate books.store).2 } := by
  unfold run
  rw [begun]
  cases readable : (Message.encode job.call.request).decode.isOk with
  | true =>
    have worked := workOff_asked ready now (now + job.delay)
      (handle_readable readable ready pushes now (now + job.delay)) rfl
    simp only [worked, end_of_answered readable ready.toOpen rate (now + job.timeout)]
    exact ⟨rfl, rfl⟩
  | false =>
    have worked := workOff_asked ready now (now + job.delay)
      (handle_unreadable readable ready now (now + job.delay)) rfl
    have waits : (job.call.toStage (.waiting rate (now + job.timeout))).run job.settings
        (now + job.delay) (job.unanswered books) =
        (job.call.toStage (.waiting rate (now + job.timeout)), job.unanswered books) :=
      ReportCall.steps_of_fixed (step_of_waiting job rate rfl (by omega)) _
    simp only [worked, waits, answer, readable]
    exact ⟨rfl, rfl⟩

theorem run_effect (wellFormed : job.WellFormed) (idle : books.Idle)
    (fits : ∀ row ∈ books.store.expenseRows job.user job.since.seconds, row.Fits) (now : Int) :
    ∃ result, (job.run now books).1.result? = some result ∧
      Effect job now books result (job.run now books).2.books := by
  have ready := job.ready_of_idle idle
  by_cases hit : ∃ report, books.store.cachedReport now job.user job.since = .ok (some report)
  · obtain ⟨report, found⟩ := hit
    rw [run_of_begun ready (begin_of_hit idle.isOpen found)]
    exact ⟨.ok report, rfl, .hit report found⟩
  · have miss : ∀ report, books.store.cachedReport now job.user job.since ≠ .ok (some report) :=
      fun report found => hit ⟨report, found⟩
    rcases begin_of_miss wellFormed.timely idle.isOpen miss with
      ⟨e, reason, begun⟩ | ⟨rate, rated, -, begun⟩
    · rw [run_of_begun ready begun]
      exact ⟨.error e, rfl, .unsent e (reason.imp_left Store.reportOf_of_unrated)⟩
    · have direct : books.store.reportOf job.user job.since =
          Report.aggregate (job.reply books.store).expenses rate :=
        Store.reportOf_of_rated rated (Store.reaches_of_outOfReach idle.reached _)
      have readable : (Message.encode job.call.request).decode.isOk = true :=
        congrArg Except.isOk (Message.decode_encode wellFormed.user wellFormed.since)
      have replyFits : (job.reply books.store).Fits := ⟨wellFormed.user, fits⟩
      obtain ⟨ended, left⟩ := run_of_waiting wellFormed.timely ready
        (job.answering.callback_eq replyFits) begun
      rw [ended, left]
      unfold answer
      rw [if_pos readable]
      cases made : Report.aggregate (job.reply books.store).expenses rate with
      | error e => exact ⟨.error e, rfl, .failed e (direct.trans made)⟩
      | ok report => exact ⟨.ok report, rfl, .made report (direct.trans made)⟩

/-- What a report comes to that is not found in the cache, and the tables that it leaves. -/
def outcomeOfMiss (job : ReportJob) (later : Int) (store : Store) : Outcome Report × Store :=
  match store.rateOf job.user with
  | .ok rate => job.answer later rate store
  | .error e => (.error e, store)

/-- What a report comes to, and the tables that it leaves. -/
def outcome (job : ReportJob) (now : Int) (store : Store) : Outcome Report × Store :=
  match store.cachedReport now job.user job.since with
  | .ok (some report) => (.ok report, store)
  | _ => job.outcomeOfMiss (now + job.delay) store

/-- While there are numbers left for requests, the tables alone decide what a report comes to. -/
theorem run_eq_outcome (timely : job.delay < job.timeout) (ready : job.Ready books)
    (pushes : ∀ desk, job.answering.callback (job.reply books.store) desk =
      Callback.toDesk (job.reply books.store) desk)
    (fits : FitsInt64 books.store.nextMessage) (now : Int) :
    (job.run now books).1 = job.call.toStage (.finished (job.outcome now books.store).1) ∧
      (job.run now books).2.books =
        { books with store := (job.outcome now books.store).2 } := by
  have missed (miss : ∀ report,
      books.store.cachedReport now job.user job.since ≠ .ok (some report)) :
      (job.run now books).1 = job.call.toStage
          (.finished (job.outcomeOfMiss (now + job.delay) books.store).1) ∧
        (job.run now books).2.books =
          { books with store := (job.outcomeOfMiss (now + job.delay) books.store).2 } := by
    unfold outcomeOfMiss
    rcases begin_of_miss timely ready.toOpen miss with
      ⟨e, unrated | unfit, begun⟩ | ⟨rate, rated, -, begun⟩
    · rw [run_of_begun ready begun, unrated]
      exact ⟨rfl, rfl⟩
    · exact absurd fits unfit
    · rw [rated]
      exact run_of_waiting timely ready pushes begun
  unfold outcome
  cases looked : books.store.cachedReport now job.user job.since with
  | error e => exact missed fun report found => by cases looked.symm.trans found
  | ok cached =>
    cases cached with
    | none => exact missed fun report found => by cases looked.symm.trans found
    | some report =>
      rw [run_of_begun ready (begin_of_hit ready.toOpen looked)]
      exact ⟨rfl, rfl⟩

end Run
end ReportJob

/-! ## The report command -/

/-- The report of a command, with whoever answers it. -/
def ReportCommand.toJob (command : ReportCommand) (answering : Answering) (delay : Nat) :
    ReportJob where
  id := command.call.id
  user := command.call.user
  since := command.call.since
  cacheTtl := command.settings.cacheTtl
  timeout := command.settings.timeout
  delay := delay
  answering := answering

theorem ReportCommand.toJob_call {command : ReportCommand} (begun : command.call.stage = .begun)
    (answering : Answering) (delay : Nat) :
    (command.toJob answering delay).call = command.call := by
  obtain ⟨period, settings, ⟨id, user, since, stage⟩, desk⟩ := command
  cases begun
  rfl

/-- The command that brings its own worker makes the report so. -/
theorem Machine.localReport_eq_run (configuration : Configuration) (user : Int) (period : Period)
    (machine : Machine) :
    let command := machine.reportCommand configuration user period (machine.openQueue true)
    let made := (command.toJob (.inProcess machine.started) 0).run machine.now machine.books
    machine.localReport configuration user period =
      machine.endReport { command with call := made.1, desk := made.2 } := by
  intro command made
  have call : (command.toJob (.inProcess machine.started) 0).call = command.call :=
    ReportCommand.toJob_call rfl _ _
  have settings : (command.toJob (.inProcess machine.started) 0).settings = command.settings := rfl
  have delay : ((command.toJob (.inProcess machine.started) 0).delay : Int) = 0 := rfl
  have desk : command.desk = { books := machine.books } := rfl
  show machine.endReport (((command.run machine.now).answerFrom (machine.openQueue true)
    machine.now).run machine.now).interrupt = _
  apply congrArg machine.endReport
  simp only [made, ReportJob.run, call, settings, delay, Int.add_zero, ReportCommand.run,
    ReportCommand.answerFrom, ReportCommand.interrupt, desk]
  rfl

end ExpenseLedger
