import ExpenseLedger.Proofs.Worker.Delivery

/-!
# A worker empties its stream

In a round a worker claims a message and handles it without anybody in between. As long as the
ledger can be read and the leases of others have run out, each round takes the first row of the
stream away, whether or not its message can be read and whatever the callback answers: as many
rounds as there are rows leave none.
-/

namespace ExpenseLedger

/-- A round of a worker: the time of its claim, and how the reply is pushed back. -/
structure WorkRound where
  now : Int
  callback : Callback

/-- A claim, and the steps that handling a delivery takes. -/
def WorkRound.actions (worker : Nat) (round : WorkRound) : List WorkAction :=
  .claim worker round.now :: List.replicate 4 (.proceed worker round.callback)

/-- The rounds of one worker, who is alone. -/
def WorkWorld.ofRounds (limit : Int) (queue : QueueHandle) (desk : Desk)
    (rounds : List WorkRound) : WorkWorld :=
  ofActions limit { desk, workers := [{ queue }] } (rounds.flatMap (WorkRound.actions 0))

/-- The reply to a message, if it can be read. -/
def Store.replyTo (store : Store) (message : Message) : Option Reply :=
  match message.decode with
  | .error _ => none
  | .ok request => some
      { id := request.id, user := request.user
        expenses := store.expenseRows request.user request.since.seconds }

namespace WorkEvent

/-- What is called back with, and for which number. -/
def call? : WorkEvent → Option (Int × Reply)
  | .called delivery reply => some (delivery.receipt, reply)
  | _ => none

/-- The number of the delivery that ended. -/
def finished? : WorkEvent → Option Int
  | .finished delivery _ => some delivery.receipt
  | _ => none

end WorkEvent

/-- Between two worlds a stream has been emptied and the others left alone. Each row was handled
once, in the order of the queue; for one that can be read the callback was made, once, and for
others it was not. -/
structure EmptiesStream (queue : QueueHandle) (before after : WorkWorld) : Prop where
  stream : after.store.stream queue.owner = []
  others : ∀ owner, owner ≠ queue.owner → after.store.stream owner = before.store.stream owner
  seen : ∃ seen, after.log = before.log ++ seen ∧
    seen.filterMap WorkEvent.finished? =
      (before.store.stream queue.owner).map QueuedMessage.seq ∧
    seen.filterMap WorkEvent.call? =
      (before.store.stream queue.owner).filterMap fun row =>
        (before.store.replyTo row.message).map fun reply => (row.seq, reply)
  nothing : ∀ now, queue.claim now after.store = .ok (none, after.store)

/-! ## The first row of a stream -/

namespace Store

variable {store : Store} {queue : QueueHandle} {row : QueuedMessage} {rest : List QueuedMessage}
  {now : Int}

/-- A free row at the head of its stream is what a handle claims. -/
theorem find_mayClaim_of_head (ascending : Rows.Ascending QueuedMessage.seq store.messages)
    (head : store.stream queue.owner = row :: rest)
    (free : ∀ claim, row.claim = some claim → claim.since + queue.visibility ≤ now) :
    store.messages.find? (queue.mayClaim store now) = some row := by
  have inStream : row ∈ store.stream queue.owner := head ▸ List.mem_cons_self
  have order : Rows.Ascending QueuedMessage.seq (row :: rest) := head ▸ ascending.filter _
  have may : queue.mayClaim store now row = true := by
    refine QueueHandle.mayClaim_iff.2 ⟨(mem_stream.1 inStream).2, ?_, fun claim claimed => ?_⟩
    · intro other inTable line
      have : other ∈ store.stream queue.owner :=
        mem_stream.2 ⟨inTable, line.1.trans (mem_stream.1 inStream).2⟩
      rw [head] at this
      rcases List.mem_cons.1 this with rfl | inRest
      · exact Int.le_refl _
      · exact Int.le_of_lt ((List.pairwise_cons.1 order).1 other inRest)
    · have := free claim claimed
      unfold QueueHandle.expiry
      omega
  rw [find_mayClaim, head, List.find?_cons_of_pos may]

theorem stream_withoutMessage_self (ascending : Rows.Ascending QueuedMessage.seq store.messages)
    (head : store.stream queue.owner = row :: rest) :
    (store.withoutMessage row.seq).stream queue.owner = rest := by
  have order : Rows.Ascending QueuedMessage.seq (row :: rest) := head ▸ ascending.filter _
  have left : (store.withoutMessage row.seq).stream queue.owner =
      (store.stream queue.owner).filter fun other => decide (other.seq ≠ row.seq) := by
    simp only [stream, withoutMessage, List.filter_filter, Bool.and_comm]
  rw [left, head, List.filter_cons_of_neg (by simp)]
  refine List.filter_eq_self.2 fun other inRest => ?_
  have := (List.pairwise_cons.1 order).1 other inRest
  exact decide_eq_true (Int.ne_of_gt this)

theorem stream_withoutMessage_of_ne (ascending : Rows.Ascending QueuedMessage.seq store.messages)
    (member : row ∈ store.messages) {owner : Option Nat} (foreign : owner ≠ row.owner) :
    (store.withoutMessage row.seq).stream owner = store.stream owner := by
  have left : (store.withoutMessage row.seq).stream owner =
      (store.stream owner).filter fun other => decide (other.seq ≠ row.seq) := by
    simp only [stream, withoutMessage, List.filter_filter, Bool.and_comm]
  rw [left]
  refine List.filter_eq_self.2 fun other inStream => decide_eq_true fun same => foreign ?_
  obtain ⟨inTable, own⟩ := mem_stream.1 inStream
  rw [← own, ascending.eq_of_key_eq inTable member same]

end Store

/-! ## One round -/

/-- With the ledger and the queue in reach a delivery is handled to the end. -/
theorem Worker.handle_of_reached (queue : QueueHandle) {callback : Callback}
    (keeps : callback.KeepsBooks) (delivery : Delivery) (desk : Desk)
    (reads : desk.books.store.reaches [.expenses, .categories] = true)
    (reached : desk.books.store.reaches [.requests] = true) :
    (handle queue callback delivery desk).1.reply? =
        desk.books.store.replyTo delivery.message ∧
      (handle queue callback delivery desk).2.books.store =
        desk.books.store.withoutHeld delivery.receipt queue.consumer := by
  have settled : ∀ after : Desk, after.books = desk.books →
      (settle queue delivery.receipt after).books.store =
        desk.books.store.withoutHeld delivery.receipt queue.consumer := by
    intro after same
    simp only [settle, Books.withStore, same, queue.acknowledge_of_reached _ reached]
    rfl
  cases decoded : delivery.message.decode with
  | error e =>
    have dropped : prepare desk.books.store delivery.message = .error (.dropped e) := by
      simp only [prepare, decoded]
    simp only [handle, answer, dropped, Store.replyTo, decoded]
    exact ⟨rfl, settled desk rfl⟩
  | ok request =>
    have guard : desk.books.store.reach .queryExpenses [.expenses, .categories] = .ok () :=
      Store.reach_eq_ok.2 reads
    have read : desk.books.store.expensesSince request.user request.since =
        .ok (desk.books.store.expenseRows request.user request.since.seconds) := by
      unfold Store.expensesSince
      rw [guard]
      rfl
    have prepared := prepare_eq_ok.2 ⟨request, _, decoded, read, rfl⟩
    have kept := keeps
      { id := request.id, user := request.user
        expenses := desk.books.store.expenseRows request.user request.since.seconds } desk
    rcases answered : callback _ desk with ⟨ack | e, after⟩ <;> rw [answered] at kept <;>
      simp only [handle, answer, prepared, answered, Store.replyTo, decoded]
    · exact ⟨rfl, settled after kept⟩
    · exact ⟨rfl, settled after kept⟩

namespace WorkWorld

variable {limit : Int} {queue : QueueHandle}

/-- A worker who is alone takes its steps one after the other. -/
theorem foldl_proceed (limit : Int) (callback : Callback) (count : Nat) {world : WorkWorld}
    {worker : WorkerProcess} (alone : world.workers = [worker]) :
    (List.replicate count (WorkAction.proceed 0 callback)).foldl (step limit) world =
      { world with
        desk := (WorkStage.steps worker.queue callback count worker.stage world.desk).2.1
        workers := [{ worker with
          stage := (WorkStage.steps worker.queue callback count worker.stage world.desk).1 }]
        log := world.log ++
          (WorkStage.steps worker.queue callback count worker.stage world.desk).2.2 } := by
  induction count generalizing world worker with
  | zero =>
    simp only [List.replicate_zero, List.foldl_nil, WorkStage.steps, List.append_nil]
    rw [← alone]
  | succ count ih =>
    rw [List.replicate_succ, List.foldl_cons]
    have moved : step limit world (.proceed 0 callback) =
        { world with
          desk := (worker.stage.step worker.queue callback world.desk).2.1
          workers := [{ worker with
            stage := (worker.stage.step worker.queue callback world.desk).1 }]
          log := world.log ++ (worker.stage.step worker.queue callback world.desk).2.2 } := by
      simp only [step, withStage, alone, List.getElem?_cons_zero, List.set_cons_zero]
    rw [moved, ih rfl]
    simp only [WorkStage.steps, List.append_assoc]

/-- A round is a claim and `Worker.handle`. -/
theorem foldl_round (limit : Int) (round : WorkRound) {world : WorkWorld} {delivery : Delivery}
    {store : Store} (alone : world.workers = [{ queue }])
    (claimed : queue.claim round.now world.store = .ok (some delivery, store)) :
    (round.actions 0).foldl (step limit) world =
      { world with
        desk := (Worker.handle queue round.callback delivery (world.withStore store).desk).2
        log := world.log ++ .claimed queue delivery ::
          (Worker.handle queue round.callback delivery (world.withStore store).desk).1.events
            delivery } := by
  have held : step limit world (.claim 0 round.now) =
      { world.withStore store with
        workers := [{ queue, stage := .holding delivery }]
        log := world.log ++ [.claimed queue delivery] } := by
    simp only [step, withStage, withStore, alone, List.getElem?_cons_zero, claimed,
      List.set_cons_zero]
  unfold WorkRound.actions
  rw [List.foldl_cons, held, foldl_proceed limit round.callback 4 rfl]
  simp only [WorkStage.steps_eq_handle, withStore, alone, List.append_assoc, List.singleton_append]

/-! ## All rounds -/

theorem finished?_events (handling : Handling) (delivery : Delivery) :
    (handling.events delivery).filterMap WorkEvent.finished? = [delivery.receipt] := by
  unfold Handling.events
  cases handling.reply? <;> rfl

theorem call?_events (handling : Handling) (delivery : Delivery) :
    (handling.events delivery).filterMap WorkEvent.call? =
      (handling.reply?.map fun reply => (delivery.receipt, reply)).toList := by
  unfold Handling.events
  cases handling.reply? <;> rfl

/-- Nothing is to be claimed in an empty stream. -/
theorem claim_of_stream_eq_nil {store : Store} (empty : store.stream queue.owner = [])
    (reached : store.reaches [.requests] = true) (now : Int) :
    queue.claim now store = .ok (none, store) := by
  rw [queue.claim_of_reached now reached, Store.find_mayClaim, empty]
  rfl

/-- A round takes the first row of the stream away. -/
theorem foldl_round_of_head (limit : Int) {round : WorkRound} {world : WorkWorld}
    {row : QueuedMessage} {rest : List QueuedMessage} (alone : world.workers = [{ queue }])
    (ascending : Rows.Ascending QueuedMessage.seq world.store.messages)
    (reached : world.store.reaches [.requests] = true)
    (reads : world.store.reaches [.expenses, .categories] = true)
    (keeps : round.callback.KeepsBooks) (head : world.store.stream queue.owner = row :: rest)
    (free : ∀ claim, row.claim = some claim → claim.since + queue.visibility ≤ round.now) :
    ((round.actions 0).foldl (step limit) world).workers = [{ queue }] ∧
      ((round.actions 0).foldl (step limit) world).store =
        world.store.withoutMessage row.seq ∧
      ∃ seen, ((round.actions 0).foldl (step limit) world).log = world.log ++ seen ∧
        seen.filterMap WorkEvent.finished? = [row.seq] ∧
        seen.filterMap WorkEvent.call? =
          ((world.store.replyTo row.message).map fun reply => (row.seq, reply)).toList := by
  have first := Store.find_mayClaim_of_head ascending head free
  have claimed : queue.claim round.now world.store =
      .ok (some (row.claimedBy queue.consumer round.now).toDelivery,
        world.store.withClaim row queue.consumer round.now) := by
    rw [queue.claim_of_reached round.now reached, first]
  obtain ⟨reply, settled⟩ := Worker.handle_of_reached queue keeps
    (row.claimedBy queue.consumer round.now).toDelivery
    (world.withStore (world.store.withClaim row queue.consumer round.now)).desk reads reached
  rw [foldl_round limit round alone claimed]
  refine ⟨alone, settled.trans (Store.withoutHeld_withClaim _ _ _ _), _, rfl, ?_, ?_⟩
  · exact finished?_events _ _
  · refine (call?_events _ _).trans ?_
    rw [reply]
    rfl

theorem emptiesStream_foldl {rounds : List WorkRound} {world : WorkWorld}
    (alone : world.workers = [{ queue }])
    (ascending : Rows.Ascending QueuedMessage.seq world.store.messages)
    (reached : world.store.reaches [.requests] = true)
    (reads : world.store.reaches [.expenses, .categories] = true)
    (keeps : ∀ round ∈ rounds, round.callback.KeepsBooks)
    (free : ∀ round ∈ rounds, ∀ row ∈ world.store.stream queue.owner, ∀ claim,
      row.claim = some claim → claim.since + queue.visibility ≤ round.now)
    (count : rounds.length = (world.store.stream queue.owner).length) :
    EmptiesStream queue world
      ((rounds.flatMap (WorkRound.actions 0)).foldl (step limit) world) := by
  induction rounds generalizing world with
  | nil =>
    have empty := List.eq_nil_of_length_eq_zero count.symm
    refine ⟨empty, fun _ _ => rfl, ⟨[], (List.append_nil _).symm, ?_, ?_⟩,
      claim_of_stream_eq_nil empty reached⟩
    · rw [empty]
      rfl
    · rw [empty]
      rfl
  | cons round later ih =>
    obtain ⟨row, rest, head⟩ := List.exists_cons_of_length_eq_add_one count.symm
    have inStream : row ∈ world.store.stream queue.owner := head ▸ List.mem_cons_self
    obtain ⟨inTable, own⟩ := Store.mem_stream.1 inStream
    have left := Store.stream_withoutMessage_self ascending head
    rw [List.flatMap_cons, List.foldl_append]
    obtain ⟨nextAlone, nextStore, seen, log, handled, called⟩ := foldl_round_of_head limit alone
      ascending reached reads (keeps round List.mem_cons_self) head
      (free round List.mem_cons_self row inStream)
    generalize (round.actions 0).foldl (step limit) world = next at nextAlone nextStore log
    have emptied : EmptiesStream queue next
        ((later.flatMap (WorkRound.actions 0)).foldl (step limit) next) := by
      apply ih nextAlone
      · rw [nextStore]
        exact ascending.filter _
      · rw [nextStore]
        exact reached
      · rw [nextStore]
        exact reads
      · exact fun other member => keeps other (List.mem_cons_of_mem _ member)
      · intro other member waiting inRest
        rw [nextStore, left] at inRest
        refine free other (List.mem_cons_of_mem _ member) waiting ?_
        rw [head]
        exact List.mem_cons_of_mem _ inRest
      · rw [nextStore, left]
        rw [head] at count
        simpa using count
    refine ⟨emptied.stream, fun owner foreign => ?_, ?_, emptied.nothing⟩
    · rw [emptied.others owner foreign, nextStore]
      exact Store.stream_withoutMessage_of_ne ascending inTable (own ▸ foreign)
    · obtain ⟨more, moreLog, moreHandled, moreCalled⟩ := emptied.seen
      rw [nextStore, left] at moreHandled moreCalled
      refine ⟨seen ++ more, by rw [moreLog, log, List.append_assoc], ?_, ?_⟩
      · rw [List.filterMap_append, handled, moreHandled, head]
        rfl
      · rw [List.filterMap_append, called, moreCalled, head]
        cases replied : world.store.replyTo row.message <;> simp [replied] <;> rfl

end WorkWorld

/-- **Workers.** Whatever workers, publishers and writers do, and whoever crashes: a message leaves
the queue only after a delivery of it could not be read or its callback has come back, and what is
called back with is the answer to its message. And a worker that is left alone with a queue whose
leases have run out, and with a ledger that can be read, takes one row of its stream away in each
round, whatever the rows say and the callbacks answer; it calls back once for each row that can be
read and for no other. -/
theorem workers_deliver_at_least_once :
    (∀ (limit : Int) (start : Desk) (actions : List WorkAction), start.books.store.Lined →
      (∀ action ∈ actions, action.KeepsBooks) → AtLeastOnce limit { desk := start } actions) ∧
    ∀ (limit : Int) (queue : QueueHandle) (desk : Desk) (rounds : List WorkRound),
      Rows.Ascending QueuedMessage.seq desk.books.store.messages →
      desk.books.store.reaches [.requests] = true →
      desk.books.store.reaches [.expenses, .categories] = true →
      (∀ round ∈ rounds, round.callback.KeepsBooks) →
      (∀ round ∈ rounds, ∀ row ∈ desk.books.store.stream queue.owner, ∀ claim,
        row.claim = some claim → claim.since + queue.visibility ≤ round.now) →
      rounds.length = (desk.books.store.stream queue.owner).length →
      EmptiesStream queue { desk, workers := [{ queue }] }
        (WorkWorld.ofRounds limit queue desk rounds) :=
  ⟨fun _ _ _ lined keeps => WorkWorld.atLeastOnce lined keeps,
    fun _ _ _ _ ascending reached reads keeps free count =>
      WorkWorld.emptiesStream_foldl rfl ascending reached reads keeps free count⟩

/-- A worker crashes while a callback is under way; another one claims the message again, calls back
and acknowledges it. -/
def crashedCallback : List WorkAction :=
  let request : ReportRequest :=
    { id := { value := 31, value_lt := by decide }, user := 3, since := .epoch }
  [.hire { consumer := 1 }, .hire { consumer := 2 }, .publish { consumer := 9 } request 0,
    .claim 0 10, .proceed 0 .toDesk, .proceed 0 .toDesk, .crash 0, .claim 1 60010] ++
    List.replicate 4 (.proceed 1 .toDesk)

/-- A message that is none, claimed by a worker that is gone, before one that can be read. -/
def neglectedQueue : Desk where
  books := { newBooks with store := { newBooks.store with
    messages :=
      [{ seq := 1, message := { id := "x", key := "y", value := "z" }, owner := none
         enqueuedAt := 0, claim := some { consumer := 8, since := 5 }, attempts := 1 },
        { seq := 2, owner := none, enqueuedAt := 0, claim := none, attempts := 0
          message :=
            { id := "00000000-0000-0000-0000-000000000001", key := "3", value := "0" } }]
    nextMessage := 3 } }

theorem workers_deliver_neglected :
    AtLeastOnce 0 { desk := { books := newBooks } } crashedCallback ∧
    (neglectedQueue.books.store.stream none).map
      (fun row => (neglectedQueue.books.store.replyTo row.message).isSome) = [false, true] ∧
    EmptiesStream { consumer := 1 }
      { desk := neglectedQueue, workers := [{ queue := { consumer := 1 } }] }
      (WorkWorld.ofRounds 0 { consumer := 1 } neglectedQueue
        [⟨60005, .toDesk⟩, ⟨60006, .toDesk⟩]) := by
  have keeps := Callback.toDesk_keepsBooks
  refine ⟨workers_deliver_at_least_once.1 0 _ _ (QueueRun.lined_of_empty rfl) ?_, by decide +kernel,
    workers_deliver_at_least_once.2 0 _ _ _ (by simp [Rows.Ascending, neglectedQueue]) rfl rfl ?_
      (by decide) rfl⟩
  · intro action member
    simp only [crashedCallback, List.replicate, List.cons_append, List.nil_append, List.mem_cons,
      List.not_mem_nil, or_false] at member
    rcases member with rfl | rfl | rfl | rfl | rfl | rfl | rfl | rfl | rfl | rfl | rfl | rfl <;>
      first | exact keeps | trivial
  · intro round member
    rcases List.mem_cons.1 member with rfl | last
    · exact keeps
    · rw [List.mem_singleton.1 last]
      exact keeps

end ExpenseLedger
