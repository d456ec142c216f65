import ExpenseLedger.Proofs.Worker.World
import Mathlib.Data.List.Induction

/-!
# Requests are answered at least once

A message leaves the queue only after a delivery of it could not be read, or was called back with
and the callback came back. The invariant is `WorkWorld.Delivering`: the rows carry the messages of
their deliveries, and the stage of a worker is backed by what has been seen. An acknowledgement
only takes away what a worker at its last stage was handed.
-/

namespace ExpenseLedger

/-- The queue handed the delivery to a worker. -/
def Handed (log : List WorkEvent) (delivery : Delivery) : Prop :=
  ∃ queue, WorkEvent.claimed queue delivery ∈ log

/-- The delivery is done with: its message cannot be read, or the callback was made and has come
back, successfully or not. -/
def Concluded (log : List WorkEvent) (delivery : Delivery) : Prop :=
  ∃ handling, WorkEvent.finished delivery handling ∈ log ∧
    ((∃ e, handling = .dropped e ∧ delivery.message.decode = .error e) ∨
      ∃ reply, handling.reply? = some reply ∧ WorkEvent.called delivery reply ∈ log)

/-- A delivery of the message of a row is done with. -/
def Attended (log : List WorkEvent) (row : QueuedMessage) : Prop :=
  ∃ delivery, Handed log delivery ∧ delivery.receipt = row.seq ∧
    delivery.message = row.message ∧ Concluded log delivery

/-- The row is still there, perhaps claimed anew. -/
def Store.Holds (store : Store) (row : QueuedMessage) : Prop :=
  ∃ current ∈ store.messages,
    current.seq = row.seq ∧ current.owner = row.owner ∧ current.message = row.message

/-- In some world of a run a worker held the delivery, and the reply has the id and the user of its
request and the expenses that the request asks for, as they were in that world. -/
def ReadDuring (limit : Int) (start : WorkWorld) (actions : List WorkAction) (delivery : Delivery)
    (reply : Reply) : Prop :=
  ∃ earlier later request, actions = earlier ++ later ∧
    (∃ worker ∈ (WorkWorld.ofActions limit start earlier).workers,
      worker.stage = .holding delivery) ∧
    delivery.message.decode = .ok request ∧
    reply =
      { id := request.id, user := request.user
        expenses := (WorkWorld.ofActions limit start earlier).store.expenseRows request.user
          request.since.seconds }

/-- No message of a run is lost, and nothing is pushed back that was not asked for. -/
structure AtLeastOnce (limit : Int) (start : WorkWorld) (actions : List WorkAction) : Prop where
  /-- A row that was there is there, or a delivery of it is done with. -/
  stays : ∀ earlier later, actions = earlier ++ later →
    ∀ row ∈ (WorkWorld.ofActions limit start earlier).store.messages,
      (WorkWorld.ofActions limit start actions).store.Holds row ∨
        Attended (WorkWorld.ofActions limit start actions).log row
  /-- What is called back with was read for a delivery. -/
  called : ∀ delivery reply,
    .called delivery reply ∈ (WorkWorld.ofActions limit start actions).log →
      Handed (WorkWorld.ofActions limit start actions).log delivery ∧
        ReadDuring limit start actions delivery reply

/-! ## Deliveries and rows -/

namespace Store

/-- The number of a delivery is spent, and the row that has it, if any, has its message. -/
def Knows (store : Store) (delivery : Delivery) : Prop :=
  delivery.receipt < store.nextMessage ∧
    ∀ row ∈ store.messages, row.seq = delivery.receipt → row.message = delivery.message

section Knows

variable {store after : Store} {delivery : Delivery} {row : QueuedMessage}

theorem Lined.of_same (lined : store.Lined) (same : store.SameQueue after) : after.Lined where
  ascending := same.messages ▸ lined.ascending
  fresh := by
    rw [same.messages, same.nextMessage]
    exact lined.fresh
  oldest := by
    unfold Oldest
    rw [same.messages]
    exact lined.oldest

theorem Knows.of_same (knows : store.Knows delivery) (same : store.SameQueue after) :
    after.Knows delivery := by
  unfold Knows
  rw [same.messages, same.nextMessage]
  exact knows

theorem Knows.withRow (knows : store.Knows delivery) (seq : row.seq = store.nextMessage) :
    (store.withRow row).Knows delivery := by
  refine ⟨Int.lt_trans knows.1 (Int.lt_succ _), fun other member same => ?_⟩
  rcases List.mem_append.1 member with old | new
  · exact knows.2 other old same
  · have := knows.1
    rw [List.mem_singleton.1 new] at same
    omega

theorem Knows.withClaim (knows : store.Knows delivery) (member : row ∈ store.messages)
    (consumer : Nat) (now : Int) : (store.withClaim row consumer now).Knows delivery := by
  refine ⟨knows.1, fun other inAfter same => ?_⟩
  rcases mem_withClaim.1 inAfter with ⟨old, -⟩ | ⟨rfl, -⟩
  · exact knows.2 other old same
  · exact knows.2 row member same

theorem Knows.withoutHeld (knows : store.Knows delivery) (receipt : Int) (consumer : Nat) :
    (store.withoutHeld receipt consumer).Knows delivery :=
  ⟨knows.1, fun row member => knows.2 row (List.mem_filter.1 member).1⟩

theorem knows_claimed (lined : store.Lined) (member : row ∈ store.messages) (consumer : Nat)
    (now : Int) :
    (store.withClaim row consumer now).Knows (row.claimedBy consumer now).toDelivery := by
  refine ⟨lined.fresh row member, fun other inAfter same => ?_⟩
  rcases mem_withClaim.1 inAfter with ⟨old, different⟩ | ⟨rfl, -⟩
  · exact absurd same different
  · rfl

end Knows

end Store

/-- An acknowledgement takes away what is held, or fails. -/
theorem Worker.settle_eq (queue : QueueHandle) (receipt : Int) (desk : Desk) :
    (Worker.settle queue receipt desk).books.store =
        desk.books.store.withoutHeld receipt queue.consumer ∨
      Worker.settle queue receipt desk = desk := by
  rcases queue.acknowledge_eq receipt desk.books.store with done | ⟨e, failed⟩
  · left
    simp only [settle, Books.withStore, done]
    rfl
  · right
    simp only [settle, Books.withStore, failed]
    rfl

/-! ## Stages and what has been seen -/

section Logs

variable {log : List WorkEvent} {delivery : Delivery}

theorem Handed.append (handed : Handed log delivery) (seen : List WorkEvent) :
    Handed (log ++ seen) delivery :=
  handed.imp fun _ member => List.mem_append_left _ member

theorem Concluded.append (concluded : Concluded log delivery) (seen : List WorkEvent) :
    Concluded (log ++ seen) delivery := by
  obtain ⟨handling, finished, why⟩ := concluded
  refine ⟨handling, List.mem_append_left _ finished, why.imp_right ?_⟩
  rintro ⟨reply, same, called⟩
  exact ⟨reply, same, List.mem_append_left _ called⟩

theorem Attended.append {row : QueuedMessage} (attended : Attended log row)
    (seen : List WorkEvent) : Attended (log ++ seen) row := by
  obtain ⟨delivery, handed, receipt, message, concluded⟩ := attended
  exact ⟨delivery, handed.append seen, receipt, message, concluded.append seen⟩

/-- What has been seen tells how the worker came to its stage; `read` says where its reply may be
from. -/
def WorkStage.Backed (log : List WorkEvent) (read : Delivery → Reply → Prop) : WorkStage → Prop
  | .idle => True
  | .holding delivery => Handed log delivery
  | .prepared delivery reply => Handed log delivery ∧ read delivery reply
  | .calling delivery handling => Handed log delivery ∧
    ∃ reply, handling.reply? = some reply ∧ WorkEvent.called delivery reply ∈ log
  | .handled delivery handling => Handed log delivery ∧
    (handling.isFinal = true → Concluded log delivery)

variable {read : Delivery → Reply → Prop} {stage next : WorkStage}

theorem WorkStage.Backed.append (backed : stage.Backed log read) (seen : List WorkEvent) :
    stage.Backed (log ++ seen) read := by
  cases stage with
  | idle => trivial
  | holding delivery => exact Handed.append backed seen
  | prepared delivery reply => exact ⟨backed.1.append seen, backed.2⟩
  | calling delivery handling =>
    obtain ⟨reply, same, called⟩ := backed.2
    exact ⟨backed.1.append seen, reply, same, List.mem_append_left _ called⟩
  | handled delivery handling =>
    exact ⟨backed.1.append seen, fun final => (backed.2 final).append seen⟩

theorem WorkStage.Backed.mono (backed : stage.Backed log read) {wider : Delivery → Reply → Prop}
    (wide : ∀ delivery reply, read delivery reply → wider delivery reply) :
    stage.Backed log wider := by
  cases stage with
  | prepared delivery reply => exact ⟨backed.1, wide _ _ backed.2⟩
  | idle => trivial
  | holding delivery => exact backed
  | calling delivery handling => exact backed
  | handled delivery handling => exact backed

/-- A message without a reply is left alone, or cannot be read. -/
theorem Worker.decode_of_prepare {store : Store} {message : Message} {handling : Handling}
    (unanswerable : Worker.prepare store message = .error handling)
    (final : handling.isFinal = true) :
    ∃ e, handling = .dropped e ∧ message.decode = .error e := by
  unfold Worker.prepare at unanswerable
  split at unanswerable
  · next e unread =>
    cases unanswerable
    exact ⟨e, rfl, unread⟩
  · split at unanswerable
    · cases unanswerable
      cases final
    · cases unanswerable

/-- Each step leads to a stage that is backed by what is then seen. -/
theorem WorkStage.Effect.backed {queue : QueueHandle} {desk after : Desk} {seen : List WorkEvent}
    (effect : Effect queue desk stage next after seen) (backed : stage.Backed log read)
    (reads : ∀ delivery reply, stage = .holding delivery →
      Worker.prepare desk.books.store delivery.message = .ok reply → read delivery reply) :
    next.Backed (log ++ seen) read := by
  cases effect with
  | rested => trivial
  | unanswerable delivery handling prepared =>
    refine ⟨Handed.append backed _, fun final => ?_⟩
    have unread := Worker.decode_of_prepare prepared final
    exact ⟨handling, List.mem_append_right _ List.mem_cons_self, Or.inl unread⟩
  | read delivery reply prepared =>
    exact ⟨Handed.append backed _, reads delivery reply rfl prepared⟩
  | called delivery reply handling after books same =>
    exact ⟨backed.1.append _, reply, same, List.mem_append_right _ List.mem_cons_self⟩
  | answered delivery handling =>
    obtain ⟨handed, reply, same, called⟩ := backed
    refine ⟨handed.append _, fun _ => ?_⟩
    exact ⟨handling, List.mem_append_right _ List.mem_cons_self,
      Or.inr ⟨reply, same, List.mem_append_left _ called⟩⟩
  | settled delivery handling final => trivial
  | deferred delivery handling => trivial

end Logs

/-! ## Worlds -/

namespace WorkWorld

/-- The rows carry the messages of their deliveries, and what has been seen backs the stages of
the workers. -/
structure Delivering (world : WorkWorld) (read : Delivery → Reply → Prop) : Prop where
  lined : world.store.Lined
  known : ∀ delivery, Handed world.log delivery → world.store.Knows delivery
  backed : ∀ worker ∈ world.workers, worker.stage.Backed world.log read
  called : ∀ delivery reply, .called delivery reply ∈ world.log →
    Handed world.log delivery ∧ read delivery reply

variable {limit : Int} {world after : WorkWorld} {read : Delivery → Reply → Prop}

theorem Delivering.mono (delivering : world.Delivering read) {wider : Delivery → Reply → Prop}
    (wide : ∀ delivery reply, read delivery reply → wider delivery reply) :
    world.Delivering wider where
  lined := delivering.lined
  known := delivering.known
  backed := fun worker member => (delivering.backed worker member).mono wide
  called := fun delivery reply member => (delivering.called delivery reply member).imp_right
    (wide delivery reply)

/-- A worker comes to a stage at a desk whose rows are those before, or fewer. -/
theorem Delivering.withStage (delivering : world.Delivering read) (desk : Desk)
    (lined : desk.books.store.Lined)
    (known : ∀ delivery, world.store.Knows delivery → desk.books.store.Knows delivery)
    {index : Nat} {worker : WorkerProcess} {stage : WorkStage} {seen : List WorkEvent}
    (backed : stage.Backed (world.log ++ seen) read)
    (handed : ∀ queue delivery, .claimed queue delivery ∈ seen →
      desk.books.store.Knows delivery)
    (called : ∀ delivery reply, .called delivery reply ∈ seen →
      Handed (world.log ++ seen) delivery ∧ read delivery reply) :
    ({ world with desk }.withStage index worker stage seen).Delivering read where
  lined := lined
  known := by
    rintro delivery ⟨queue, member⟩
    rcases List.mem_append.1 member with old | new
    · exact known delivery (delivering.known delivery ⟨queue, old⟩)
    · exact handed queue delivery new
  backed := by
    intro other member
    rcases List.mem_or_eq_of_mem_set member with old | rfl
    · exact (delivering.backed other old).append seen
    · exact backed
  called := by
    intro delivery reply member
    rcases List.mem_append.1 member with old | new
    · exact (delivering.called delivery reply old).imp_left fun handed => handed.append seen
    · exact called delivery reply new

theorem Delivering.effect (delivering : world.Delivering read) (effect : Effect world after)
    (reads : ∀ worker ∈ world.workers, ∀ delivery reply, worker.stage = .holding delivery →
      Worker.prepare world.store delivery.message = .ok reply → read delivery reply) :
    after.Delivering read := by
  cases effect with
  | quiet after queue workers log =>
    refine ⟨delivering.lined.of_same queue, fun delivery handed => ?_, fun worker member => ?_, ?_⟩
    · exact (delivering.known delivery (log ▸ handed)).of_same queue
    · rcases workers worker member with old | idle
      · exact log ▸ delivering.backed worker old
      · rw [idle]
        trivial
    · rw [log]
      exact delivering.called
  | queued row seq unclaimed =>
    exact ⟨delivering.lined.withRow seq unclaimed,
      fun delivery handed => (delivering.known delivery handed).withRow seq,
      delivering.backed, delivering.called⟩
  | claimed index queue now row idle member may =>
    refine delivering.withStage (world.withStore _).desk
      (delivering.lined.withClaim member (QueueHandle.mayClaim_iff.1 may).2.1)
      (fun delivery knows => knows.withClaim member _ _) ⟨queue, by simp⟩ ?_ (by simp)
    intro queue delivery seen
    cases List.mem_singleton.1 seen
    exact Store.knows_claimed delivering.lined member _ _
  | moved index worker stage desk seen found effect =>
    have member := List.mem_of_getElem? found
    have before := delivering.backed worker member
    have backed := effect.backed before (reads worker member)
    generalize here : worker.stage = first at effect before
    cases effect with
    | called delivery reply handling after books same =>
      refine delivering.withStage _ (books ▸ delivering.lined) (fun _ knows => books ▸ knows) backed
        (by simp) fun other otherReply seen => ?_
      cases List.mem_singleton.1 seen
      exact ⟨before.1.append _, before.2⟩
    | settled delivery handling final =>
      rcases Worker.settle_eq worker.queue delivery.receipt world.desk with settled | same
      · refine delivering.withStage _ ?_ (fun other knows => ?_) backed (by simp) (by simp)
        · rw [settled]
          exact delivering.lined.withoutHeld
        · rw [settled]
          exact knows.withoutHeld _ _
      · rw [same]
        exact delivering.withStage _ delivering.lined (fun _ knows => knows) backed (by simp)
          (by simp)
    | _ =>
      exact delivering.withStage _ delivering.lined (fun _ knows => knows) backed (by simp)
        (by simp)

/-! ## Rows that stay -/

/-- A row is still there after an action, or a delivery of it is done with. -/
theorem Delivering.stays (delivering : world.Delivering read) (effect : Effect world after)
    {row : QueuedMessage} (member : row ∈ world.store.messages) :
    after.store.Holds row ∨ Attended after.log row := by
  cases effect with
  | quiet after queue workers log =>
    exact Or.inl ⟨row, queue.messages ▸ member, rfl, rfl, rfl⟩
  | queued new seq unclaimed => exact Or.inl ⟨row, List.mem_append_left _ member, rfl, rfl, rfl⟩
  | claimed index queue now claimed idle claimedIn may =>
    left
    by_cases same : row.seq = claimed.seq
    · obtain rfl := delivering.lined.ascending.eq_of_key_eq member claimedIn same
      exact ⟨_, Store.mem_withClaim.2 (Or.inr ⟨rfl, row, member, rfl⟩), rfl, rfl, rfl⟩
    · exact ⟨row, Store.mem_withClaim.2 (Or.inl ⟨member, same⟩), rfl, rfl, rfl⟩
  | moved index worker stage desk seen found effect =>
    have backed := delivering.backed worker (List.mem_of_getElem? found)
    generalize here : worker.stage = first at effect backed
    cases effect with
    | called delivery reply handling after books same =>
      left
      refine ⟨row, ?_, rfl, rfl, rfl⟩
      show row ∈ desk.books.store.messages
      rw [books]
      exact member
    | settled delivery handling final =>
      rcases Worker.settle_eq worker.queue delivery.receipt world.desk with settled | same
      · by_cases held : row.isHeldBy delivery.receipt worker.queue.consumer = true
        · right
          have receipt := (QueuedMessage.isHeldBy_iff.1 held).1
          have message := (delivering.known delivery backed.1).2 row member receipt
          exact Attended.append
            ⟨delivery, backed.1, receipt.symm, message.symm, backed.2 final⟩ []
        · left
          refine ⟨row, ?_, rfl, rfl, rfl⟩
          show row ∈ (Worker.settle worker.queue delivery.receipt world.desk).books.store.messages
          rw [settled]
          exact List.mem_filter.2 ⟨member, by simpa using held⟩
      · left
        refine ⟨row, ?_, rfl, rfl, rfl⟩
        show row ∈ (Worker.settle worker.queue delivery.receipt world.desk).books.store.messages
        rw [same]
        exact member
    | _ => exact Or.inl ⟨row, member, rfl, rfl, rfl⟩

/-- What has been seen stays seen. -/
theorem Effect.log (effect : Effect world after) : ∃ seen, after.log = world.log ++ seen := by
  cases effect with
  | quiet after queue workers log => exact ⟨[], log.trans (List.append_nil _).symm⟩
  | queued row seq unclaimed => exact ⟨[], (List.append_nil _).symm⟩
  | claimed index queue now row idle member may => exact ⟨_, rfl⟩
  | moved index worker stage desk seen found effect => exact ⟨seen, rfl⟩

/-! ## Whole runs -/

variable {start : Desk} {actions : List WorkAction}

theorem ofActions_concat (limit : Int) (start : WorkWorld) (actions : List WorkAction)
    (last : WorkAction) :
    ofActions limit start (actions ++ [last]) = (ofActions limit start actions).step limit last := by
  simp [ofActions, List.foldl_append]

theorem delivering_ofActions (lined : start.books.store.Lined)
    (keeps : ∀ action ∈ actions, action.KeepsBooks) :
    (ofActions limit { desk := start } actions).Delivering
      (ReadDuring limit { desk := start } actions) := by
  induction actions using List.reverseRecOn with
  | nil =>
    refine ⟨lined, ?_, by simp [ofActions], by simp [ofActions]⟩
    rintro delivery ⟨queue, member⟩
    cases member
  | append_singleton before last ih =>
    have delivering := ih fun action member => keeps action (List.mem_append_left _ member)
    have wide : ∀ delivery reply, ReadDuring limit { desk := start } before delivery reply →
        ReadDuring limit { desk := start } (before ++ [last]) delivery reply := by
      rintro delivery reply ⟨earlier, later, request, rfl, found⟩
      exact ⟨earlier, later ++ [last], request, by simp, found⟩
    rw [ofActions_concat]
    refine (delivering.mono wide).effect (step_effect limit _ (keeps last (by simp))) ?_
    intro worker member delivery reply holding prepared
    obtain ⟨request, rows, decoded, read, made⟩ := Worker.prepare_eq_ok.1 prepared
    refine ⟨before, [last], request, rfl, ⟨worker, member, holding⟩, decoded, ?_⟩
    obtain ⟨-, -, found⟩ := Outcome.bind_eq_ok.1 read
    cases found
    exact made

theorem atLeastOnce (lined : start.books.store.Lined)
    (keeps : ∀ action ∈ actions, action.KeepsBooks) :
    AtLeastOnce limit { desk := start } actions where
  called := (delivering_ofActions lined keeps).called
  stays := by
    intro earlier later split row member
    induction later using List.reverseRecOn generalizing actions with
    | nil =>
      rw [split, List.append_nil]
      exact Or.inl ⟨row, member, rfl, rfl, rfl⟩
    | append_singleton between last ih =>
      rw [← List.append_assoc] at split
      subst split
      have keepsBefore : ∀ action ∈ earlier ++ between, action.KeepsBooks :=
        fun action inBefore => keeps action (List.mem_append_left _ inBefore)
      have delivering : (ofActions limit { desk := start } (earlier ++ between)).Delivering _ :=
        delivering_ofActions lined keepsBefore
      have effect := step_effect limit (ofActions limit { desk := start } (earlier ++ between))
        (keeps last (by simp))
      rw [ofActions_concat]
      rcases ih keepsBefore rfl with ⟨current, inTable, seq, owner, message⟩ | attended
      · rcases delivering.stays effect inTable with
          ⟨next, nextIn, nextSeq, nextOwner, nextMessage⟩ | ⟨delivery, handed, receipt, same, done⟩
        · exact Or.inl ⟨next, nextIn, nextSeq.trans seq, nextOwner.trans owner,
            nextMessage.trans message⟩
        · exact Or.inr ⟨delivery, handed, receipt.trans seq, same.trans message, done⟩
      · obtain ⟨seen, log⟩ := effect.log
        rw [log]
        exact Or.inr (attended.append seen)

end WorkWorld
end ExpenseLedger
