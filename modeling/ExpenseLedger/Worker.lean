import ExpenseLedger.Report.Desk
import ExpenseLedger.Store.Expenses

/-!
# Workers

A worker claims requests, reads the expenses that they ask for and pushes them back. A message
is acknowledged once the attempt to push has been made, whatever came of it; one that can never
be answered is acknowledged at once. A message whose expenses cannot be read is left alone: its
lease runs out, and it is handed out again.
-/

namespace ExpenseLedger

/-- What came of one delivery. -/
inductive Handling where
  | replied (reply : Reply) (ack : Ack)
  | callbackFailed (reply : Reply) (error : Error)
  | dropped (error : Error)
  | deferred (error : Error)
  deriving DecidableEq

namespace Handling

/-- The reply that was pushed back, or should have been. -/
def reply? : Handling → Option Reply
  | .replied reply _ => some reply
  | .callbackFailed reply _ => some reply
  | _ => none

/-- The message is acknowledged. -/
def isFinal : Handling → Bool
  | .deferred _ => false
  | _ => true

end Handling

/-- How replies are pushed back. -/
abbrev Callback := Reply → Desk → Outcome Ack × Desk

/-- Replies are taken in at the desk itself. -/
def Callback.toDesk : Callback := fun reply desk =>
  let (ack, desk) := desk.deliver reply
  (.ok ack, desk)

namespace Worker

/-- The reply to a message, or what becomes of a message that has none. -/
def prepare (store : Store) (message : Message) : Except Handling Reply :=
  match message.decode with
  | .error e => .error (.dropped e)
  | .ok request =>
    match store.expensesSince request.user request.since with
    | .error e => .error (.deferred e)
    | .ok expenses => .ok { id := request.id, user := request.user, expenses }

/-- Answers a message, without acknowledging it. -/
def answer (callback : Callback) (message : Message) (desk : Desk) : Handling × Desk :=
  match prepare desk.books.store message with
  | .error handling => (handling, desk)
  | .ok reply =>
    match callback reply desk with
    | (.ok ack, desk) => (.replied reply ack, desk)
    | (.error e, desk) => (.callbackFailed reply e, desk)

/-- Acknowledges a delivery as well as the queue lets it; a message that stays is handed out
again. -/
def settle (handle : QueueHandle) (receipt : Int) (desk : Desk) : Desk :=
  match desk.books.withStore (handle.acknowledge receipt) with
  | .ok books => { desk with books }
  | .error _ => desk

def handle (queue : QueueHandle) (callback : Callback) (delivery : Delivery) (desk : Desk) :
    Handling × Desk :=
  let (handling, desk) := answer callback delivery.message desk
  (handling, if handling.isFinal then settle queue delivery.receipt desk else desk)

/-- Claims and handles deliveries until nothing can be claimed, at most `rounds` of them. -/
def run (queue : QueueHandle) (callback : Callback) (now : Int) :
    Nat → Desk → List Handling × Desk
  | 0, desk => ([], desk)
  | rounds + 1, desk =>
    match queue.claim now desk.books.store with
    | .ok (some delivery, store) =>
      let desk := { desk with books := { desk.books with store } }
      let (handling, desk) := handle queue callback delivery desk
      let (rest, desk) := run queue callback now rounds desk
      (handling :: rest, desk)
    | .ok (none, _) => ([], desk)
    | .error _ => ([], desk)

/-- Works off the queue, in at most as many deliveries as there are messages. -/
def workOff (queue : QueueHandle) (callback : Callback) (now : Int) (desk : Desk) :
    List Handling × Desk :=
  run queue callback now desk.books.store.messages.length desk

end Worker
end ExpenseLedger
