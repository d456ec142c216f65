import ExpenseLedger.Proofs.Callback
import ExpenseLedger.Proofs.Report.World
import ExpenseLedger.Proofs.Request.Run

/-!
# Workers among publishers and writers

Any number of workers claim requests and answer them step by step, and between their steps anybody
may publish requests, put messages into the queue that are none, or write to the ledger. A worker
may crash at any point, also while a callback is under way; all that it leaves behind is a lease.

A worker that is left alone does what `Worker.handle` does: `WorkStage.steps_eq_handle`.
`WorkWorld.step_effect` says all that one action can do.
-/

namespace ExpenseLedger

/-- How far a worker has come with a delivery. While it is calling back, the callback has been made
and its answer is on the way. -/
inductive WorkStage where
  | idle
  | holding (delivery : Delivery)
  | prepared (delivery : Delivery) (reply : Reply)
  | calling (delivery : Delivery) (handling : Handling)
  | handled (delivery : Delivery) (handling : Handling)

/-- A worker, with the handle by which it claims. -/
structure WorkerProcess where
  queue : QueueHandle
  stage : WorkStage := .idle

/-- What is seen of the workers: deliveries, callbacks as they are made, and how each delivery
ended. -/
inductive WorkEvent where
  | claimed (queue : QueueHandle) (delivery : Delivery)
  | called (delivery : Delivery) (reply : Reply)
  | finished (delivery : Delivery) (handling : Handling)

namespace WorkStage

/-- The next step with a delivery, and what is seen of it. -/
def step (queue : QueueHandle) (callback : Callback) (stage : WorkStage) (desk : Desk) :
    WorkStage × Desk × List WorkEvent :=
  match stage with
  | .idle => (.idle, desk, [])
  | .holding delivery =>
    match Worker.prepare desk.books.store delivery.message with
    | .error handling => (.handled delivery handling, desk, [.finished delivery handling])
    | .ok reply => (.prepared delivery reply, desk, [])
  | .prepared delivery reply =>
    match callback reply desk with
    | (.ok ack, desk) => (.calling delivery (.replied reply ack), desk, [.called delivery reply])
    | (.error e, desk) =>
      (.calling delivery (.callbackFailed reply e), desk, [.called delivery reply])
  | .calling delivery handling =>
    (.handled delivery handling, desk, [.finished delivery handling])
  | .handled delivery handling =>
    (.idle, if handling.isFinal then Worker.settle queue delivery.receipt desk else desk, [])

/-- A number of steps without anybody in between. -/
def steps (queue : QueueHandle) (callback : Callback) :
    Nat → WorkStage → Desk → WorkStage × Desk × List WorkEvent
  | 0, stage, desk => (stage, desk, [])
  | count + 1, stage, desk =>
    let (stage, desk, seen) := stage.step queue callback desk
    let (stage, desk, later) := steps queue callback count stage desk
    (stage, desk, seen ++ later)

end WorkStage

/-- One action of somebody. Workers are named by their places; times are in milliseconds. -/
inductive WorkAction where
  | hire (queue : QueueHandle)
  | claim (worker : Nat) (now : Int)
  | proceed (worker : Nat) (callback : Callback)
  | crash (worker : Nat)
  | publish (handle : QueueHandle) (request : ReportRequest) (now : Int)
  | enqueue (message : Message) (owner : Option Nat) (now : Int)
  | ledger (action : LedgerAction)

/-- The desk, who is at work, and what has been seen. -/
structure WorkWorld where
  desk : Desk
  writings : List WritingCall := []
  workers : List WorkerProcess := []
  log : List WorkEvent := []

namespace WorkWorld

/-- The tables. -/
def store (world : WorkWorld) : Store :=
  world.desk.books.store

/-- The world with the tables changed. -/
def withStore (world : WorkWorld) (store : Store) : WorkWorld :=
  { world with desk := { world.desk with books := { world.desk.books with store } } }

/-- The world after a worker has come to a stage, and has perhaps been seen to. -/
def withStage (world : WorkWorld) (index : Nat) (worker : WorkerProcess) (stage : WorkStage)
    (seen : List WorkEvent) : WorkWorld :=
  { world with
    workers := world.workers.set index { worker with stage }
    log := world.log ++ seen }

/-- The world after one more action, where new users get the limit that is configured. A worker
only claims when it is idle. -/
def step (limit : Int) (world : WorkWorld) : WorkAction → WorkWorld
  | .hire queue => { world with workers := world.workers ++ [{ queue }] }
  | .claim index now =>
    match world.workers[index]? with
    | some { queue, stage := .idle } =>
      match queue.claim now world.store with
      | .ok (some delivery, store) =>
        (world.withStore store).withStage index { queue } (.holding delivery)
          [.claimed queue delivery]
      | _ => world
    | _ => world
  | .proceed index callback =>
    match world.workers[index]? with
    | none => world
    | some worker =>
      let (stage, desk, seen) := worker.stage.step worker.queue callback world.desk
      { world with desk }.withStage index worker stage seen
  | .crash index =>
    match world.workers[index]? with
    | none => world
    | some worker => world.withStage index worker .idle []
  | .publish handle request now => world.withStore (handle.publish request now world.store).2
  | .enqueue message owner now =>
    match world.store.enqueue message owner now with
    | .ok store => world.withStore store
    | .error _ => world
  | .ledger action =>
    let run := LedgerRun.step limit { books := world.desk.books, calls := world.writings } action
    { world with desk := { world.desk with books := run.books }, writings := run.calls }

/-- The world after a list of actions. -/
def ofActions (limit : Int) (start : WorkWorld) (actions : List WorkAction) : WorkWorld :=
  actions.foldl (step limit) start

end WorkWorld

/-! ## Callbacks -/

/-- The callback has no hand in the books. -/
def Callback.KeepsBooks (callback : Callback) : Prop :=
  ∀ reply desk, (callback reply desk).2.books = desk.books

/-- The callbacks of an action have no hand in the books. -/
def WorkAction.KeepsBooks : WorkAction → Prop
  | .proceed _ callback => callback.KeepsBooks
  | _ => True

theorem Callback.toDesk_keepsBooks : Callback.toDesk.KeepsBooks := by
  intro reply desk
  show (desk.deliver reply).2.books = desk.books
  unfold Desk.deliver
  split
  · rfl
  · split <;> rfl

/-- What is tried until it succeeds changes nothing that no attempt changes. -/
theorem retryFrom_keeps {σ α β : Type} (view : σ → β) {what : String} {op : σ → Outcome α × σ}
    (keeps : ∀ state, view (op state).2 = view state) :
    ∀ budget spent state, view (retryFrom what op spent budget state).2 = view state := by
  intro budget
  induction budget with
  | zero =>
    intro spent state
    have kept := keeps state
    unfold retryFrom
    split
    · next fault after failed =>
      rw [failed] at kept
      exact kept
    · exact kept
  | succ budget ih =>
    intro spent state
    have kept := keeps state
    unfold retryFrom
    split
    · next fault after failed =>
      rw [failed] at kept
      exact (ih (spent + 1) after).trans kept
    · exact kept

theorem Callback.serve_keeps {σ β : Type} (view : σ → β) {sink : Reply → σ → Outcome Ack × σ}
    (keeps : ∀ reply state, view (sink reply state).2 = view state) (post : Post) (state : σ) :
    view (serve sink post state).2 = view state := by
  unfold serve
  split
  · rfl
  · next reply found =>
    have kept := keeps reply state
    split <;> next answered => rw [answered] at kept; exact kept

theorem Machine.callbackTo_keepsBooks (address : Net.SocketAddress) (isListening : Bool) :
    (callbackTo address isListening).KeepsBooks := by
  intro reply desk
  refine retryFrom_keeps Desk.books (fun state => ?_) _ 0 desk
  cases isListening with
  | false => rfl
  | true =>
    exact Callback.serve_keeps Desk.books Callback.toDesk_keepsBooks _ state

/-! ## A worker that is left alone -/

/-- Who has no reply to push back has nothing to call back with. -/
theorem Worker.reply?_of_prepare {store : Store} {message : Message} {handling : Handling}
    (unanswerable : Worker.prepare store message = .error handling) : handling.reply? = none := by
  unfold Worker.prepare at unanswerable
  split at unanswerable
  · cases unanswerable
    rfl
  · split at unanswerable
    · cases unanswerable
      rfl
    · cases unanswerable

/-- What is seen of handling a delivery. -/
def Handling.events (handling : Handling) (delivery : Delivery) : List WorkEvent :=
  handling.reply?.toList.map (WorkEvent.called delivery) ++ [.finished delivery handling]

theorem WorkStage.steps_eq_handle (queue : QueueHandle) (callback : Callback) (delivery : Delivery)
    (desk : Desk) :
    steps queue callback 4 (.holding delivery) desk =
      (.idle, (Worker.handle queue callback delivery desk).2,
        (Worker.handle queue callback delivery desk).1.events delivery) := by
  cases prepared : Worker.prepare desk.books.store delivery.message with
  | error handling =>
    have silent := Worker.reply?_of_prepare prepared
    simp [steps, step, Worker.handle, Worker.answer, prepared, Handling.events, silent]
  | ok reply =>
    rcases answered : callback reply desk with ⟨ack | e, after⟩ <;>
      simp [steps, step, Worker.handle, Worker.answer, prepared, answered, Handling.events,
        Handling.reply?, Handling.isFinal]

/-! ## What an action can do -/

/-- What a step of a worker can do at a desk. -/
inductive WorkStage.Effect (queue : QueueHandle) (desk : Desk) :
    WorkStage → WorkStage → Desk → List WorkEvent → Prop
  | rested : Effect queue desk .idle .idle desk []
  | unanswerable (delivery : Delivery) (handling : Handling)
      (prepared : Worker.prepare desk.books.store delivery.message = .error handling) :
      Effect queue desk (.holding delivery) (.handled delivery handling) desk
        [.finished delivery handling]
  | read (delivery : Delivery) (reply : Reply)
      (prepared : Worker.prepare desk.books.store delivery.message = .ok reply) :
      Effect queue desk (.holding delivery) (.prepared delivery reply) desk []
  | called (delivery : Delivery) (reply : Reply) (handling : Handling) (after : Desk)
      (books : after.books = desk.books) (same : handling.reply? = some reply) :
      Effect queue desk (.prepared delivery reply) (.calling delivery handling) after
        [.called delivery reply]
  | answered (delivery : Delivery) (handling : Handling) :
      Effect queue desk (.calling delivery handling) (.handled delivery handling) desk
        [.finished delivery handling]
  | settled (delivery : Delivery) (handling : Handling) (final : handling.isFinal = true) :
      Effect queue desk (.handled delivery handling) .idle
        (Worker.settle queue delivery.receipt desk) []
  | deferred (delivery : Delivery) (handling : Handling) :
      Effect queue desk (.handled delivery handling) .idle desk []

theorem WorkStage.step_effect (queue : QueueHandle) {callback : Callback}
    (keeps : callback.KeepsBooks) (stage : WorkStage) (desk : Desk) :
    ∃ next after seen, stage.step queue callback desk = (next, after, seen) ∧
      Effect queue desk stage next after seen := by
  cases stage with
  | idle => exact ⟨_, _, _, rfl, .rested⟩
  | holding delivery =>
    cases prepared : Worker.prepare desk.books.store delivery.message with
    | error handling =>
      simp only [step, prepared]
      exact ⟨_, _, _, rfl, .unanswerable delivery handling prepared⟩
    | ok reply =>
      simp only [step, prepared]
      exact ⟨_, _, _, rfl, .read delivery reply prepared⟩
  | prepared delivery reply =>
    have kept := keeps reply desk
    rcases answered : callback reply desk with ⟨ack | e, after⟩
    · rw [answered] at kept
      simp only [step, answered]
      exact ⟨_, _, _, rfl, .called delivery reply _ after kept rfl⟩
    · rw [answered] at kept
      simp only [step, answered]
      exact ⟨_, _, _, rfl, .called delivery reply _ after kept rfl⟩
  | calling delivery handling => exact ⟨_, _, _, rfl, .answered delivery handling⟩
  | handled delivery handling =>
    cases final : handling.isFinal with
    | true =>
      simp only [step, final, if_true]
      exact ⟨_, _, _, rfl, .settled delivery handling final⟩
    | false =>
      simp only [step, final, Bool.false_eq_true, if_false]
      exact ⟨_, _, _, rfl, .deferred delivery handling⟩

namespace WorkWorld

/-- What an action can do to a world: the queue and the work that is under way stay as they are,
but for workers that come or crash; or a row comes to the queue; or an idle worker claims a row;
or a worker takes a step. -/
inductive Effect (world : WorkWorld) : WorkWorld → Prop
  | quiet (after : WorkWorld) (queue : world.store.SameQueue after.store)
      (workers : ∀ worker ∈ after.workers, worker ∈ world.workers ∨ worker.stage = .idle)
      (log : after.log = world.log) : Effect world after
  | queued (row : QueuedMessage) (seq : row.seq = world.store.nextMessage)
      (unclaimed : row.claim = none) : Effect world (world.withStore (world.store.withRow row))
  | claimed (index : Nat) (queue : QueueHandle) (now : Int) (row : QueuedMessage)
      (idle : world.workers[index]? = some { queue }) (member : row ∈ world.store.messages)
      (may : queue.mayClaim world.store now row = true) :
      Effect world
        ((world.withStore (world.store.withClaim row queue.consumer now)).withStage index { queue }
          (.holding (row.claimedBy queue.consumer now).toDelivery)
          [.claimed queue (row.claimedBy queue.consumer now).toDelivery])
  | moved (index : Nat) (worker : WorkerProcess) (stage : WorkStage) (desk : Desk)
      (seen : List WorkEvent) (found : world.workers[index]? = some worker)
      (effect : WorkStage.Effect worker.queue world.desk worker.stage stage desk seen) :
      Effect world ({ world with desk }.withStage index worker stage seen)

/-- Nothing happens. -/
theorem Effect.nothing (world : WorkWorld) : Effect world world :=
  .quiet world ⟨rfl, rfl⟩ (fun _ member => Or.inl member) rfl

theorem step_effect (limit : Int) (world : WorkWorld) {action : WorkAction}
    (keeps : action.KeepsBooks) : Effect world (world.step limit action) := by
  cases action with
  | hire queue =>
    refine .quiet _ ⟨rfl, rfl⟩ (fun worker member => ?_) rfl
    rcases List.mem_append.1 member with old | new
    · exact Or.inl old
    · rw [List.mem_singleton.1 new]
      exact Or.inr rfl
  | claim index now =>
    simp only [step]
    split
    · next queue idle =>
      by_cases reached : world.store.reaches [.requests] = true
      · rcases queue.claim_eq now reached with
          ⟨none, -⟩ | ⟨before, row, after, split, may, -, claimed⟩
        · simp only [none]
          exact .nothing world
        · simp only [claimed]
          exact .claimed index queue now row idle (by simp [split]) may
      · simp only [queue.claim_eq_error now reached]
        exact .nothing world
    · exact .nothing world
  | proceed index callback =>
    cases found : world.workers[index]? with
    | none =>
      simp only [step, found]
      exact .nothing world
    | some worker =>
      obtain ⟨stage, desk, seen, stepped, effect⟩ :=
        WorkStage.step_effect worker.queue keeps worker.stage world.desk
      simp only [step, found, stepped]
      exact .moved index worker stage desk seen found effect
  | crash index =>
    cases found : world.workers[index]? with
    | none =>
      simp only [step, found]
      exact .nothing world
    | some worker =>
      simp only [step, found]
      refine .quiet _ ⟨rfl, rfl⟩ (fun other member => ?_) (List.append_nil _)
      rcases List.mem_or_eq_of_mem_set member with old | rfl
      · exact Or.inl old
      · exact Or.inr rfl
  | publish handle request now =>
    rcases handle.publish_eq request now world.store with ⟨-, sent⟩ | ⟨-, e, failed⟩
    · simp only [step, sent]
      exact .queued _ rfl rfl
    · simp only [step, failed]
      exact .nothing world
  | enqueue message owner now =>
    rcases world.store.enqueue_eq message owner now with ⟨-, done⟩ | ⟨-, failed⟩
    · simp only [step, done]
      exact .queued _ rfl rfl
    · simp only [step, failed]
      exact .nothing world
  | ledger action =>
    have same := LedgerRun.queue_step limit
      { books := world.desk.books, calls := world.writings } action
    exact .quiet _ same (fun _ member => Or.inl member) rfl

end WorkWorld
end ExpenseLedger
