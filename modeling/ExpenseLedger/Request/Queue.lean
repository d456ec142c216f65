import ExpenseLedger.Retry
import ExpenseLedger.Store.Tables

/-!
# The request queue

Requests wait in a table until a consumer acknowledges them. Messages of one key are handed out
strictly in the order in which they were published: only the oldest message of its key can be
claimed. A claim is a lease; when it has run out, the message can be claimed again, and it is
then handed out with the next attempt number. Acknowledging removes a message, if the lease is
still the consumer's own.

A private handle only claims what it published itself, and no other handle claims that.
-/

namespace ExpenseLedger

/-- A handle on the queue. Handles differ in their consumer numbers; the time for which a lease
lasts is in milliseconds. -/
structure QueueHandle where
  consumer : Nat
  isPrivate : Bool := false
  visibility : Nat := 60000
  maxRetries : Nat := 3
  deriving DecidableEq, Repr, Inhabited

/-- A message as it is handed out: the receipt to acknowledge it with, and how many times it has
been handed out. -/
structure Delivery where
  receipt : Int
  message : Message
  attempt : Nat
  deriving DecidableEq, Repr, Inhabited

namespace QueuedMessage

/-- Nobody has a lease on the message that began after `expiry`. -/
def isFree (message : QueuedMessage) (expiry : Int) : Bool :=
  match message.claim with
  | none => true
  | some claim => decide (claim.since ≤ expiry)

/-- The message stands before another one of the same key and stream. -/
def blocks (earlier later : QueuedMessage) : Bool :=
  decide (earlier.message.key = later.message.key) && decide (earlier.owner = later.owner) &&
    decide (earlier.seq < later.seq)

/-- The message after a consumer has claimed it. -/
def claimedBy (message : QueuedMessage) (consumer : Nat) (now : Int) : QueuedMessage :=
  { message with claim := some { consumer, since := now }, attempts := message.attempts + 1 }

/-- The message as it is handed out. -/
def toDelivery (message : QueuedMessage) : Delivery :=
  { receipt := message.seq, message := message.message, attempt := message.attempts }

/-- The message is the one of a receipt, and its lease is the consumer's. -/
def isHeldBy (message : QueuedMessage) (receipt : Int) (consumer : Nat) : Bool :=
  decide (message.seq = receipt) && decide (message.claim.map Claim.consumer = some consumer)

end QueuedMessage

namespace Store

/-- Adds a message at the end of a stream. -/
def enqueue (store : Store) (message : Message) (owner : Option Nat) (now : Int) :
    Outcome Store := do
  store.reachQueue .enqueue
  if ¬FitsInt64 store.nextMessage then
    .error (.transportUnavailable (.queue .enqueue))
  else
    let row : QueuedMessage :=
      { seq := store.nextMessage, message, owner, enqueuedAt := now, claim := none, attempts := 0 }
    .ok { store with messages := store.messages ++ [row], nextMessage := store.nextMessage + 1 }

/-- No message of its key and stream stands before this one. -/
def isOldestOfKey (store : Store) (message : QueuedMessage) : Bool :=
  store.messages.all fun other => !other.blocks message

/-- The number of messages that have not been acknowledged, of all streams. -/
def queueDepth (store : Store) : Outcome Nat := do
  store.reachQueue .count
  .ok store.messages.length

end Store

namespace QueueHandle

/-- The stream of the handle: its own one, or the shared one. -/
def owner (handle : QueueHandle) : Option Nat :=
  if handle.isPrivate then some handle.consumer else none

/-- The time at which a lease must have begun to have run out by now. -/
def expiry (handle : QueueHandle) (now : Int) : Int :=
  max (now - min (handle.visibility : Int) maxInt64) minInt64

def publish (handle : QueueHandle) (request : ReportRequest) (now : Int) (store : Store) :
    Outcome Unit × Store :=
  retry handle.maxRetries "publish"
    (tentatively fun store => store.enqueue (.encode request) handle.owner now) store

/-- The handle may claim the message now. -/
def mayClaim (handle : QueueHandle) (store : Store) (now : Int) (message : QueuedMessage) : Bool :=
  decide (message.owner = handle.owner) && message.isFree (handle.expiry now) &&
    store.isOldestOfKey message

/-- Claims the first message that the handle may claim, if there is one. -/
def claim (handle : QueueHandle) (now : Int) (store : Store) :
    Outcome (Option Delivery × Store) := do
  store.reachQueue .claim
  match store.messages.find? (handle.mayClaim store now) with
  | none => .ok (none, store)
  | some first =>
    let claimed := first.claimedBy handle.consumer now
    let messages := store.messages.map fun row => if row.seq = first.seq then claimed else row
    .ok (some claimed.toDelivery, { store with messages })

/-- Acknowledges a delivery: its message goes, unless the lease has passed to another
consumer. -/
def acknowledge (handle : QueueHandle) (receipt : Int) (store : Store) : Outcome Store := do
  store.reachQueue .acknowledge
  let messages := store.messages.filter fun row => !row.isHeldBy receipt handle.consumer
  .ok { store with messages }

end QueueHandle
end ExpenseLedger
