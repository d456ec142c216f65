import ExpenseLedger.Books
import ExpenseLedger.Callback.Reply
import ExpenseLedger.Request.Queue

/-!
# The report desk

The desk is what all report calls of a process share: the books, the table of those who wait for
an answer, the replies that were handed over and not yet taken, and the requests that went out.
A reply is taken in only if somebody waits under its id, and for the same user.
-/

namespace ExpenseLedger

/-- Somebody who waits for the expenses of a user. -/
structure Waiter where
  id : Uuid
  user : Int
  deriving DecidableEq

/-- Where requests go: they are only noted down, or put into the queue, or lost. -/
inductive Publisher where
  | outbox
  | queue (handle : QueueHandle)
  | broken (fault : TransportFault)
  deriving DecidableEq

/-- What the report calls of a process share. -/
structure Desk where
  books : Books
  waiters : List Waiter := []
  mail : List Reply := []
  published : List ReportRequest := []
  deriving DecidableEq

namespace Desk

/-- Whoever waits under an id. -/
def waiter? (desk : Desk) (id : Uuid) : Option Waiter :=
  desk.waiters.find? fun waiter => waiter.id = id

/-- Somebody begins to wait. -/
def register (desk : Desk) (waiter : Waiter) : Desk :=
  { desk with waiters := desk.waiters ++ [waiter] }

/-- Nobody waits under an id any more, and what was handed over for it is thrown away. -/
def leave (desk : Desk) (id : Uuid) : Desk :=
  { desk with
    waiters := desk.waiters.filter fun waiter => waiter.id ≠ id
    mail := desk.mail.filter fun reply => reply.id ≠ id }

/-- Takes a reply in, for the one who waits for it. -/
def deliver (desk : Desk) (reply : Reply) : Ack × Desk :=
  match desk.waiter? reply.id with
  | none => (.noWaiter, desk)
  | some waiter =>
    if waiter.user = reply.user then
      (.delivered, { desk with
        waiters := desk.waiters.filter fun waiter => waiter.id ≠ reply.id
        mail := desk.mail ++ [reply] })
    else
      (.noWaiter, desk)

/-- The reply that was handed over for an id. -/
def mailFor? (desk : Desk) (id : Uuid) : Option Reply :=
  desk.mail.find? fun reply => reply.id = id

def publish (desk : Desk) (publisher : Publisher) (now : Int) (request : ReportRequest) :
    Outcome Unit × Desk :=
  match publisher with
  | .outbox => (.ok (), { desk with published := desk.published ++ [request] })
  | .broken fault => (.error (.transportUnavailable fault), desk)
  | .queue handle =>
    match handle.publish request now desk.books.store with
    | (.ok (), store) =>
      (.ok (), { desk with
        books := { desk.books with store }
        published := desk.published ++ [request] })
    | (.error e, store) => (.error e, { desk with books := { desk.books with store } })

end Desk
end ExpenseLedger
