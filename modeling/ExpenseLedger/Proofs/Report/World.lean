import ExpenseLedger.Proofs.Ledger.Run
import ExpenseLedger.Proofs.Request.Queue
import ExpenseLedger.Proofs.Request.Wire
import ExpenseLedger.Report.Call
import ExpenseLedger.Worker

/-!
# Report calls among writers and workers

A desk at which any number of report calls are under way, the writers and workers around it, and
everything that is in flight between them: deliveries that workers have claimed, and replies that
they have prepared. A prepared reply may arrive at any time, more than once, or never; besides,
replies arrive that nobody has asked for.

`ReportCall.step_effect` says all that a step of a call can do, and `ReportCall.Move` what all steps
have in common.
-/

namespace ExpenseLedger

/-- What is seen of an action: the desk takes a reply in, or a call takes a reply. -/
inductive ReportEvent where
  | handed (reply : Reply)
  | taken (caller : Nat) (reply : Reply)

/-- One action of somebody. Times are in milliseconds; calls, claimed deliveries and prepared
replies are named by their places in the lists of the world. -/
inductive ReportAction where
  | begin (id : Uuid) (user : Int) (since : Instant)
  | proceed (caller : Nat) (now : Int)
  | cancel (caller : Nat)
  | ledger (action : LedgerAction)
  | publishElsewhere (handle : QueueHandle) (request : ReportRequest) (now : Int)
  | claim (handle : QueueHandle) (now : Int)
  | prepare (delivery : Nat)
  | deliver (reply : Nat)
  | deliverStray (reply : Reply)
  | settle (handle : QueueHandle) (receipt : Int)

/-- The correlation id that an action brings into the world. -/
def ReportAction.newId? : ReportAction → Option Uuid
  | .begin id _ _ => some id
  | .publishElsewhere _ request _ => some request.id
  | _ => none

/-- The desk, what is under way, and what has been seen, the newest event first. -/
structure ReportWorld where
  desk : Desk
  calls : List ReportCall := []
  writings : List WritingCall := []
  claimed : List Delivery := []
  replies : List Reply := []
  log : List ReportEvent := []

namespace ReportWorld

/-- The tables. -/
def store (world : ReportWorld) : Store :=
  world.desk.books.store

/-- How far a call has come, if it has begun. -/
def stage? (world : ReportWorld) (caller : Nat) : Option CallStage :=
  (world.calls[caller]?).map ReportCall.stage

/-- The world with the tables changed. -/
def withStore (world : ReportWorld) (store : Store) : ReportWorld :=
  { world with desk := { world.desk with books := { world.desk.books with store } } }

/-- The world after a call has moved and perhaps taken a reply. -/
def move (world : ReportWorld) (caller : Nat) (next : ReportCall × Desk) (took : Option Reply) :
    ReportWorld :=
  { world with
    desk := next.2
    calls := world.calls.set caller next.1
    log := took.toList.map (.taken caller) ++ world.log }

/-- The world after a reply has arrived at the desk. -/
def arrive (world : ReportWorld) (reply : Reply) : ReportWorld :=
  let (ack, desk) := world.desk.deliver reply
  { world with desk, log := if ack = .delivered then .handed reply :: world.log else world.log }

/-- Somebody waits for the reply: under its id, and for its user. -/
def expects (world : ReportWorld) (reply : Reply) : Bool :=
  world.desk.waiters.any fun waiter => waiter.id = reply.id ∧ waiter.user = reply.user

/-- The reply that a step of a call takes, one that goes from waiting to having an answer. -/
def taking? (call next : ReportCall) (desk : Desk) : Option Reply :=
  match call.stage, next.stage with
  | .waiting _ _, .answered _ _ => desk.mailFor? call.id
  | _, _ => none

/-- The world after one more action, where new users get the limit that is configured. -/
def step (settings : ReportSettings) (limit : Int) (world : ReportWorld) :
    ReportAction → ReportWorld
  | .begin id user since => { world with calls := world.calls ++ [{ id, user, since }] }
  | .proceed caller now =>
    match world.calls[caller]? with
    | none => world
    | some call =>
      let next := call.step settings now world.desk
      world.move caller next (taking? call next.1 world.desk)
  | .cancel caller =>
    match world.calls[caller]? with
    | none => world
    | some call => world.move caller (call.cancel world.desk) none
  | .ledger action =>
    let run := LedgerRun.step limit { books := world.desk.books, calls := world.writings } action
    { world with desk := { world.desk with books := run.books }, writings := run.calls }
  | .publishElsewhere handle request now =>
    world.withStore (handle.publish request now world.store).2
  | .claim handle now =>
    match handle.claim now world.store with
    | .ok (some delivery, store) =>
      { world.withStore store with claimed := world.claimed ++ [delivery] }
    | _ => world
  | .prepare index =>
    match world.claimed[index]? with
    | none => world
    | some delivery =>
      match Worker.prepare world.store delivery.message with
      | .ok reply => { world with replies := world.replies ++ [reply] }
      | .error _ => world
  | .deliver index =>
    match world.replies[index]? with
    | none => world
    | some reply => world.arrive reply
  | .deliverStray reply => if world.expects reply then world else world.arrive reply
  | .settle handle receipt => { world with desk := Worker.settle handle receipt world.desk }

end ReportWorld

/-- A run: the world as it is, and as it was before each action, the latest first. -/
structure ReportRun where
  world : ReportWorld
  past : List ReportWorld := []

namespace ReportRun

/-- All worlds of a run. -/
def worlds (run : ReportRun) : List ReportWorld :=
  run.world :: run.past

/-- The run after one more action. -/
def step (settings : ReportSettings) (limit : Int) (run : ReportRun) (action : ReportAction) :
    ReportRun :=
  { world := run.world.step settings limit action, past := run.worlds }

/-- The run of a list of actions, from a desk on. -/
def ofActions (settings : ReportSettings) (limit : Int) (start : Desk)
    (actions : List ReportAction) : ReportRun :=
  actions.foldl (step settings limit) { world := { desk := start } }

end ReportRun

/-- A worker that handles a delivery without anybody in between does what these actions do one
after the other. -/
theorem handle_eq_actions (settings : ReportSettings) (limit : Int) {world : ReportWorld}
    {index : Nat} {delivery : Delivery} (found : world.claimed[index]? = some delivery)
    (queue : QueueHandle) :
    ∃ actions : List ReportAction, (∀ action ∈ actions, action.newId? = none) ∧
      (Worker.handle queue .toDesk delivery world.desk).2 =
        (actions.foldl (ReportWorld.step settings limit) world).desk := by
  cases prepared : Worker.prepare world.desk.books.store delivery.message with
  | error handling =>
    simp only [Worker.handle, Worker.answer, prepared]
    cases handling.isFinal with
    | false => exact ⟨[], nofun, rfl⟩
    | true => exact ⟨[.settle queue delivery.receipt], by simp [ReportAction.newId?], rfl⟩
  | ok reply =>
    have ready : (world.replies ++ [reply])[world.replies.length]? = some reply := by simp
    refine ⟨[.prepare index, .deliver world.replies.length, .settle queue delivery.receipt],
      by simp [ReportAction.newId?], ?_⟩
    simp only [Worker.handle, Worker.answer, prepared, Callback.toDesk, List.foldl_cons,
      List.foldl_nil, ReportWorld.step, found, ReportWorld.store, ready]
    rfl

/-! ## How far a call has come -/

/-- The number of a stage. Calls never go back. -/
@[simp] def CallStage.rank : CallStage → Nat
  | .begun => 0
  | .missed => 1
  | .userRead _ => 2
  | .rated _ => 3
  | .registered _ => 4
  | .waiting _ _ => 5
  | .answered _ _ => 6
  | .aggregated _ => 7
  | .finished _ => 8

/-- The call is between publishing its request and taking an answer or giving up. -/
def CallStage.IsWaiting (stage : CallStage) : Prop :=
  ∃ rate deadline, stage = .waiting rate deadline

theorem CallStage.isWaiting_iff {stage : CallStage} : stage.IsWaiting ↔ stage.rank = 5 := by
  constructor
  · rintro ⟨rate, deadline, rfl⟩
    rfl
  · intro h
    cases stage with
    | waiting rate deadline => exact ⟨rate, deadline, rfl⟩
    | _ => cases h

/-! ## What a worker prepares -/

/-- A worker has a reply where the message can be read and its rows can be queried. -/
theorem Worker.prepare_eq_ok {store : Store} {message : Message} {reply : Reply} :
    Worker.prepare store message = .ok reply ↔
      ∃ request rows, message.decode = .ok request ∧
        store.expensesSince request.user request.since = .ok rows ∧
        reply = { id := request.id, user := request.user, expenses := rows } := by
  unfold Worker.prepare
  constructor
  · intro prepared
    cases decoded : message.decode with
    | error e =>
      simp only [decoded] at prepared
      cases prepared
    | ok request =>
      cases read : store.expensesSince request.user request.since with
      | error e =>
        simp only [decoded, read] at prepared
        cases prepared
      | ok rows =>
        simp only [decoded, read] at prepared
        cases prepared
        exact ⟨request, rows, rfl, read, rfl⟩
  · rintro ⟨request, rows, decoded, read, rfl⟩
    simp only [decoded, read]

/-- A worker that can claim nothing leaves the desk as it is. -/
theorem Worker.run_of_none {queue : QueueHandle} {callback : Callback} {now : Int} {desk : Desk}
    (nothing : queue.claim now desk.books.store = .ok (none, desk.books.store)) (rounds : Nat) :
    Worker.run queue callback now rounds desk = ([], desk) := by
  cases rounds with
  | zero => rfl
  | succ rounds => simp only [Worker.run, nothing]

/-! ## What a step of a call can do -/

namespace Desk

/-- What publishing a request changes: it has gone out, and the queue may have one more message,
the request. -/
structure Sends (desk : Desk) (request : ReportRequest) (after : Desk) : Prop where
  waiters : after.waiters = desk.waiters
  mail : after.mail = desk.mail
  published : after.published = desk.published ++ [request]
  messages : ∀ row ∈ after.books.store.messages,
    row ∈ desk.books.store.messages ∨ row.message = .encode request

theorem publish_sends (desk : Desk) (publisher : Publisher) (now : Int) (request : ReportRequest) :
    (∃ after, desk.publish publisher now request = (.ok (), after) ∧ desk.Sends request after) ∨
      ∃ e, desk.publish publisher now request = (.error e, desk) := by
  cases publisher with
  | outbox => exact Or.inl ⟨_, rfl, rfl, rfl, rfl, fun _ member => Or.inl member⟩
  | broken fault => exact Or.inr ⟨_, rfl⟩
  | queue handle =>
    rcases handle.publish_eq request now desk.books.store with ⟨-, sent⟩ | ⟨-, e, failed⟩
    · left
      simp only [publish, sent]
      refine ⟨_, rfl, rfl, rfl, rfl, fun row member => ?_⟩
      rcases List.mem_append.1 member with old | new
      · exact Or.inl old
      · rw [List.mem_singleton.1 new]
        exact Or.inr rfl
    · right
      simp only [publish, failed]
      exact ⟨e, rfl⟩

end Desk

namespace ReportCall

/-- What a step can do to a call: it goes on with what it has read, waits on, or ends, and when it
has its answer or ends, it leaves the desk. -/
inductive Effect (call : ReportCall) (now : Int) (desk : Desk) : CallStage → CallStage → Desk → Prop
  | cached (report : Report) (books : Books)
      (hit : desk.books.cachedReport now call.user call.since = .ok (some report, books)) :
      Effect call now desk .begun (.finished (.ok report)) (Desk.leave { desk with books } call.id)
  | missed (books : Books) (same : books.store = desk.books.store) :
      Effect call now desk .begun .missed { desk with books }
  | userRead (row : User) (read : desk.books.store.user call.user = .ok row) :
      Effect call now desk .missed (.userRead row.currency) desk
  | rated (currency : Int) (rate : Rate) (read : desk.books.store.rate currency = .ok rate) :
      Effect call now desk (.userRead currency) (.rated rate) desk
  | registered (rate : Rate) :
      Effect call now desk (.rated rate) (.registered rate)
        (desk.register { id := call.id, user := call.user })
  | published (rate : Rate) (deadline : Int) (after : Desk) (sends : desk.Sends call.request after) :
      Effect call now desk (.registered rate) (.waiting rate deadline) after
  | waited (rate : Rate) (deadline : Int) :
      Effect call now desk (.waiting rate deadline) (.waiting rate deadline) desk
  | answered (rate : Rate) (deadline : Int) (reply : Reply)
      (mail : desk.mailFor? call.id = some reply) :
      Effect call now desk (.waiting rate deadline) (.answered rate reply.expenses)
        (desk.leave call.id)
  | aggregated (rate : Rate) (rows : List ExpenseRow) (report : Report)
      (sums : Report.aggregate rows rate = .ok report) :
      Effect call now desk (.answered rate rows) (.aggregated report) desk
  | returned (report : Report) (books : Books)
      (same : books.store.messages = desk.books.store.messages) :
      Effect call now desk (.aggregated report) (.finished (.ok report))
        (Desk.leave { desk with books } call.id)
  | failed (stage : CallStage) (e : Error) (under_way : stage.rank < 8) :
      Effect call now desk stage (.finished (.error e)) (desk.leave call.id)
  | ended (result : Outcome Report) :
      Effect call now desk (.finished result) (.finished result) desk

theorem step_effect (settings : ReportSettings) (now : Int) (call : ReportCall) (desk : Desk) :
    ∃ stage after, call.step settings now desk = (call.toStage stage, after) ∧
      Effect call now desk call.stage stage after := by
  obtain ⟨id, user, since, stage⟩ := call
  cases stage with
  | begun =>
    cases found : desk.books.cachedReport now user since with
    | error e =>
      simp only [step, found]
      exact ⟨_, _, rfl, .missed desk.books rfl⟩
    | ok result =>
      obtain ⟨report, books⟩ := result
      cases report with
      | none =>
        simp only [step, found]
        exact ⟨_, _, rfl, .missed books (Books.cachedReport_store found)⟩
      | some report =>
        simp only [step, found]
        exact ⟨_, _, rfl, .cached report books found⟩
  | missed =>
    cases read : desk.books.store.user user with
    | ok row =>
      simp only [step, read]
      exact ⟨_, _, rfl, .userRead row read⟩
    | error e =>
      simp only [step, read]
      exact ⟨_, _, rfl, .failed _ e (by simp)⟩
  | userRead currency =>
    cases read : desk.books.store.rate currency with
    | ok rate =>
      simp only [step, read]
      exact ⟨_, _, rfl, .rated currency rate read⟩
    | error e =>
      simp only [step, read]
      exact ⟨_, _, rfl, .failed _ e (by simp)⟩
  | rated rate => exact ⟨_, _, rfl, .registered rate⟩
  | registered rate =>
    rcases desk.publish_sends settings.publisher now { id, user, since } with
      ⟨after, sent, sends⟩ | ⟨e, failed⟩
    · simp only [step, request, sent]
      exact ⟨_, _, rfl, .published rate _ after sends⟩
    · simp only [step, request, failed]
      exact ⟨_, _, rfl, .failed _ e (by simp)⟩
  | waiting rate deadline =>
    cases mail : desk.mailFor? id with
    | some reply =>
      simp only [step, mail]
      exact ⟨_, _, rfl, .answered rate deadline reply mail⟩
    | none =>
      by_cases late : deadline ≤ now
      · simp only [step, mail, late, if_true]
        exact ⟨_, _, rfl, .failed _ .cancelled (by simp)⟩
      · simp only [step, mail, late, if_false]
        exact ⟨_, _, rfl, .waited rate deadline⟩
  | answered rate rows =>
    cases sums : Report.aggregate rows rate with
    | ok report =>
      simp only [step, sums]
      exact ⟨_, _, rfl, .aggregated rate rows report sums⟩
    | error e =>
      simp only [step, sums]
      exact ⟨_, _, rfl, .failed _ e (by simp)⟩
  | aggregated report =>
    cases stored : desk.books.cacheReport now settings.cacheTtl user since report with
    | ok books =>
      simp only [step, stored]
      obtain ⟨cachedReports, same⟩ := Books.cacheReport_store stored
      exact ⟨_, _, rfl, .returned report books (by rw [same])⟩
    | error e =>
      simp only [step, stored]
      exact ⟨_, _, rfl, .returned report desk.books rfl⟩
  | finished result => exact ⟨_, _, rfl, .ended result⟩

/-- A call that is cancelled stays where it is or ends. -/
theorem cancel_effect (now : Int) (call : ReportCall) (desk : Desk) :
    call.cancel desk = (call, desk) ∨ ∃ e,
      call.cancel desk = (call.toStage (.finished (.error e)), desk.leave call.id) ∧
        Effect call now desk call.stage (.finished (.error e)) (desk.leave call.id) := by
  obtain ⟨id, user, since, stage⟩ := call
  cases stage with
  | waiting rate deadline => exact Or.inr ⟨.cancelled, rfl, .failed _ .cancelled (by simp)⟩
  | _ => exact Or.inl rfl

/-- What all steps of a call keep: the call stays the same one and does not go back; it sends out
no request but its own, and waits under no name but its own; once it has an answer or has ended, it
neither waits nor has mail. -/
structure Move (call next : ReportCall) (before after : Desk) : Prop where
  id : next.id = call.id
  user : next.user = call.user
  since : next.since = call.since
  rank_le : call.stage.rank ≤ next.stage.rank
  messages : ∀ row ∈ after.books.store.messages, row ∈ before.books.store.messages ∨
    (row.message = .encode call.request ∧ 5 ≤ next.stage.rank)
  waiters : ∀ waiter ∈ after.waiters,
    (waiter ∈ before.waiters ∧ (waiter.id = call.id → 4 ≤ call.stage.rank →
      call.stage.rank ≤ 5 → next.stage.rank ≤ 5)) ∨
    (waiter = { id := call.id, user := call.user } ∧ call.stage.rank = 3 ∧ next.stage.rank = 4)
  mail : ∀ reply ∈ after.mail, reply ∈ before.mail ∧
    (reply.id = call.id → call.stage.rank = 5 → next.stage.rank = 5)

section Move

variable {call : ReportCall} {before after : Desk} {stage : CallStage}

/-- A call that stays where it is keeps everything. -/
theorem Move.refl (call : ReportCall) (desk : Desk) : Move call call desk desk where
  id := rfl
  user := rfl
  since := rfl
  rank_le := Nat.le_refl _
  messages := fun _ member => Or.inl member
  waiters := fun _ member => Or.inl ⟨member, fun _ _ low => low⟩
  mail := fun _ member => ⟨member, fun _ waits => waits⟩

/-- A step that touches neither the waiters nor the mail. -/
theorem move_toStage (rank_le : call.stage.rank ≤ stage.rank)
    (waits : call.stage.rank = 5 → stage.rank = 5)
    (awaits : 4 ≤ call.stage.rank → call.stage.rank ≤ 5 → stage.rank ≤ 5)
    (waiters : after.waiters = before.waiters) (mail : after.mail = before.mail)
    (messages : ∀ row ∈ after.books.store.messages, row ∈ before.books.store.messages ∨
      (row.message = .encode call.request ∧ 5 ≤ stage.rank)) :
    Move call (call.toStage stage) before after where
  id := rfl
  user := rfl
  since := rfl
  rank_le := rank_le
  messages := messages
  waiters := fun _ member => Or.inl ⟨waiters ▸ member, fun _ => awaits⟩
  mail := fun _ member => ⟨mail ▸ member, fun _ => waits⟩

/-- A step with which the call leaves the desk. -/
theorem move_leave (books : Books) (rank_le : call.stage.rank ≤ stage.rank)
    (messages : books.store.messages = before.books.store.messages) :
    Move call (call.toStage stage) before (Desk.leave { before with books } call.id) where
  id := rfl
  user := rfl
  since := rfl
  rank_le := rank_le
  messages := by
    intro row member
    change row ∈ books.store.messages at member
    rw [messages] at member
    exact Or.inl member
  waiters := by
    intro waiter member
    obtain ⟨old, other⟩ := List.mem_filter.1 member
    exact Or.inl ⟨old, fun same => absurd same (of_decide_eq_true other)⟩
  mail := by
    intro reply member
    obtain ⟨old, other⟩ := List.mem_filter.1 member
    exact ⟨old, fun same => absurd same (of_decide_eq_true other)⟩

theorem Effect.move {now : Int} (effect : Effect call now before call.stage stage after) :
    Move call (call.toStage stage) before after := by
  generalize here : call.stage = first at effect
  cases effect with
  | cached report books hit =>
    exact move_leave _ (by simp [here]) (by rw [Books.cachedReport_store hit])
  | missed books same =>
    refine move_toStage (by simp [here]) (by simp [here]) (by simp [here]) rfl rfl fun row member =>
      Or.inl ?_
    change row ∈ books.store.messages at member
    rw [same] at member
    exact member
  | userRead row read =>
    exact move_toStage (by simp [here]) (by simp [here]) (by simp [here]) rfl rfl
      fun _ member => Or.inl member
  | rated currency rate read =>
    exact move_toStage (by simp [here]) (by simp [here]) (by simp [here]) rfl rfl
      fun _ member => Or.inl member
  | registered rate =>
    exact {
      id := rfl
      user := rfl
      since := rfl
      rank_le := by simp [here, toStage]
      messages := fun _ member => Or.inl member
      waiters := by
        intro waiter member
        rcases List.mem_append.1 member with old | new
        · exact Or.inl ⟨old, by simp [here]⟩
        · exact Or.inr ⟨List.mem_singleton.1 new, by simp [here], by simp [toStage]⟩
      mail := fun _ member => ⟨member, by simp [here]⟩ }
  | published rate deadline after sends =>
    refine move_toStage (by simp [here]) (by simp [here]) (by simp [here]) sends.waiters sends.mail
      fun row member => ?_
    exact (sends.messages row member).imp_right fun own => ⟨own, by simp⟩
  | waited rate deadline =>
    exact move_toStage (by simp [here]) (by simp) (by simp) rfl rfl fun _ member => Or.inl member
  | answered rate deadline reply mail => exact move_leave _ (by simp [here]) rfl
  | aggregated rate rows report sums =>
    exact move_toStage (by simp [here]) (by simp [here]) (by simp [here]) rfl rfl
      fun _ member => Or.inl member
  | returned report books same => exact move_leave _ (by simp [here]) same
  | failed stage e under_way =>
    refine move_leave before.books ?_ rfl
    rw [here]
    exact Nat.le_of_lt under_way
  | ended result =>
    exact move_toStage (by simp [here]) (by simp [here]) (by simp [here]) rfl rfl
      fun _ member => Or.inl member

end Move
end ReportCall
end ExpenseLedger
