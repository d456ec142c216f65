import ExpenseLedger.Proofs.Outcome
import ExpenseLedger.Request.Queue

/-!
# What one queue operation does

Publishing adds one row at the end or nothing, a claim stamps one row or nothing, acknowledging
takes away the rows that the receipt and the consumer name. These three facts are all that runs of
the queue are reasoned from; nothing below this module opens the operations again.

A queue is `Lined` if its rows are in the order of their numbers, the next number is beyond all of
them, and every claimed row is the oldest of its stream and key. `Lined` is kept by each operation.
-/

namespace ExpenseLedger

namespace QueuedMessage

/-- The messages have one stream and one key, so that one waits for the other. -/
def SameLine (a b : QueuedMessage) : Prop :=
  a.owner = b.owner ∧ a.message.key = b.message.key

theorem SameLine.symm {a b : QueuedMessage} (h : a.SameLine b) : b.SameLine a :=
  ⟨h.1.symm, h.2.symm⟩

theorem SameLine.trans {a b c : QueuedMessage} (h : a.SameLine b) (h' : b.SameLine c) :
    a.SameLine c :=
  ⟨h.1.trans h'.1, h.2.trans h'.2⟩

theorem blocks_iff {earlier later : QueuedMessage} :
    earlier.blocks later = true ↔ earlier.SameLine later ∧ earlier.seq < later.seq := by
  unfold blocks SameLine
  simp only [Bool.and_eq_true, decide_eq_true_eq]
  constructor
  · rintro ⟨⟨key, owner⟩, less⟩
    exact ⟨⟨owner, key⟩, less⟩
  · rintro ⟨⟨owner, key⟩, less⟩
    exact ⟨⟨key, owner⟩, less⟩

theorem isFree_iff {row : QueuedMessage} {expiry : Int} :
    row.isFree expiry = true ↔ ∀ claim, row.claim = some claim → claim.since ≤ expiry := by
  unfold isFree
  cases row.claim <;> simp

theorem isHeldBy_iff {row : QueuedMessage} {receipt : Int} {consumer : Nat} :
    row.isHeldBy receipt consumer = true ↔
      row.seq = receipt ∧ ∃ claim, row.claim = some claim ∧ claim.consumer = consumer := by
  unfold isHeldBy
  simp only [Bool.and_eq_true, decide_eq_true_eq, Option.map_eq_some_iff]

end QueuedMessage

namespace Store

/-- No message of the same stream and key is older. -/
def Oldest (store : Store) (row : QueuedMessage) : Prop :=
  ∀ other ∈ store.messages, other.SameLine row → row.seq ≤ other.seq

theorem isOldestOfKey_iff {store : Store} {row : QueuedMessage} :
    store.isOldestOfKey row = true ↔ store.Oldest row := by
  unfold isOldestOfKey Oldest
  simp only [List.all_eq_true, Bool.not_eq_true', ← Bool.not_eq_true, QueuedMessage.blocks_iff,
    not_and, Int.not_lt]

/-- The row of a message that is published next. -/
def nextRow (store : Store) (message : Message) (owner : Option Nat) (now : Int) :
    QueuedMessage :=
  { seq := store.nextMessage, message, owner, enqueuedAt := now, claim := none, attempts := 0 }

/-- The queue with one more row at its end. -/
def withRow (store : Store) (row : QueuedMessage) : Store :=
  { store with messages := store.messages ++ [row], nextMessage := store.nextMessage + 1 }

/-- The queue after a consumer has claimed a row. -/
def withClaim (store : Store) (row : QueuedMessage) (consumer : Nat) (now : Int) : Store :=
  { store with messages := store.messages.map fun other =>
      if other.seq = row.seq then row.claimedBy consumer now else other }

/-- The queue without what a consumer holds under a receipt. -/
def withoutHeld (store : Store) (receipt : Int) (consumer : Nat) : Store :=
  { store with messages := store.messages.filter fun row => !row.isHeldBy receipt consumer }

/-- The queue without a row. -/
def withoutMessage (store : Store) (seq : Int) : Store :=
  { store with messages := store.messages.filter fun row => decide (row.seq ≠ seq) }

/-- One more message can be published. -/
def AcceptsMessages (store : Store) : Prop :=
  store.reaches [.requests] = true ∧ FitsInt64 store.nextMessage

/-- What is claimed and then acknowledged is gone. -/
theorem withoutHeld_withClaim (store : Store) (row : QueuedMessage) (consumer : Nat) (now : Int) :
    (store.withClaim row consumer now).withoutHeld row.seq consumer =
      store.withoutMessage row.seq := by
  unfold withoutHeld withClaim withoutMessage
  congr 1
  rw [List.filter_map]
  have kept : store.messages.filter
      ((fun other => !other.isHeldBy row.seq consumer) ∘ fun other =>
        if other.seq = row.seq then row.claimedBy consumer now else other) =
      store.messages.filter fun other => decide (other.seq ≠ row.seq) := by
    refine List.filter_congr fun other _ => ?_
    by_cases same : other.seq = row.seq <;>
      simp [same, QueuedMessage.isHeldBy, QueuedMessage.claimedBy]
  rw [kept]
  refine (List.map_congr_left fun other member => if_neg ?_).trans (List.map_id _)
  simpa using (List.mem_filter.1 member).2

/-! ## The operations -/

theorem enqueue_eq (store : Store) (message : Message) (owner : Option Nat) (now : Int) :
    (store.AcceptsMessages ∧
      store.enqueue message owner now = .ok (store.withRow (store.nextRow message owner now))) ∨
    (¬store.AcceptsMessages ∧
      store.enqueue message owner now = .error (.transportUnavailable (.queue .enqueue))) := by
  unfold AcceptsMessages enqueue
  by_cases reached : store.reaches [.requests] = true
  · have guard : store.reachQueue .enqueue = .ok () := reachQueue_eq_ok.2 reached
    by_cases fits : FitsInt64 store.nextMessage
    · left
      refine ⟨⟨reached, fits⟩, ?_⟩
      simp only [guard, fits]
      rfl
    · right
      refine ⟨fun h => fits h.2, ?_⟩
      simp only [guard, fits]
      rfl
  · right
    refine ⟨fun h => reached h.1, ?_⟩
    simp only [reachQueue, reached]
    rfl

end Store

/-- A change that is tried again on an unchanged state happens once. -/
theorem retryFrom_tentatively_ok {σ : Type} (what : String) {change : σ → Outcome σ}
    {state after : σ} (done : change state = .ok after) (budget spent : Nat) :
    retryFrom what (tentatively change) spent budget state = (.ok (), after) := by
  cases budget <;> simp [retryFrom, tentatively, done]

/-- A change that is refused is refused however often it is tried, with one error for all
states. -/
theorem retryFrom_tentatively_error {σ : Type} (what : String) (change : σ → Outcome σ)
    (e : Error) : ∀ budget spent : Nat, ∃ e', ∀ state, change state = .error e →
      retryFrom what (tentatively change) spent budget state = (.error e', state) := by
  intro budget
  induction budget with
  | zero =>
    intro spent
    cases e <;> exact ⟨_, fun state refused => by simp only [retryFrom, tentatively, refused]; rfl⟩
  | succ budget ih =>
    intro spent
    cases e with
    | transportUnavailable fault =>
      obtain ⟨e', again⟩ := ih (spent + 1)
      refine ⟨e', fun state refused => ?_⟩
      simpa [retryFrom, tentatively, refused] using again state refused
    | _ => exact ⟨_, fun state refused => by simp only [retryFrom, tentatively, refused]; rfl⟩

namespace QueueHandle

variable {handle : QueueHandle} {now : Int} {store : Store}

/-- Publishing adds the row of the request, if the queue takes one; else it changes nothing, and
the error is the same for all queues. -/
theorem publish_uniform (handle : QueueHandle) (request : ReportRequest) (now : Int) :
    ∃ e, ∀ store : Store,
      (store.AcceptsMessages ∧ handle.publish request now store =
        (.ok (), store.withRow (store.nextRow (.encode request) handle.owner now))) ∨
      (¬store.AcceptsMessages ∧ handle.publish request now store = (.error e, store)) := by
  obtain ⟨e, refused⟩ := retryFrom_tentatively_error "publish"
    (fun store : Store => store.enqueue (.encode request) handle.owner now)
    (.transportUnavailable (.queue .enqueue)) handle.maxRetries 0
  refine ⟨e, fun store => ?_⟩
  rcases store.enqueue_eq (.encode request) handle.owner now with
    ⟨accepts, done⟩ | ⟨refuses, failed⟩
  · exact Or.inl ⟨accepts, retryFrom_tentatively_ok "publish" done handle.maxRetries 0⟩
  · exact Or.inr ⟨refuses, refused store failed⟩

theorem publish_eq (handle : QueueHandle) (request : ReportRequest) (now : Int) (store : Store) :
    (store.AcceptsMessages ∧ handle.publish request now store =
      (.ok (), store.withRow (store.nextRow (.encode request) handle.owner now))) ∨
    (¬store.AcceptsMessages ∧ ∃ e, handle.publish request now store = (.error e, store)) := by
  obtain ⟨e, published⟩ := handle.publish_uniform request now
  exact (published store).imp_right fun ⟨refuses, failed⟩ => ⟨refuses, e, failed⟩

theorem mayClaim_iff {row : QueuedMessage} :
    handle.mayClaim store now row = true ↔
      row.owner = handle.owner ∧ store.Oldest row ∧
        ∀ claim, row.claim = some claim → claim.since ≤ handle.expiry now := by
  unfold mayClaim
  simp only [Bool.and_eq_true, decide_eq_true_eq, QueuedMessage.isFree_iff,
    Store.isOldestOfKey_iff]
  constructor
  · rintro ⟨⟨owner, free⟩, oldest⟩
    exact ⟨owner, oldest, free⟩
  · rintro ⟨owner, oldest, free⟩
    exact ⟨⟨owner, free⟩, oldest⟩

theorem claim_of_reached (handle : QueueHandle) (now : Int)
    (reached : store.reaches [.requests] = true) :
    handle.claim now store =
      match store.messages.find? (handle.mayClaim store now) with
      | none => .ok (none, store)
      | some row => .ok (some (row.claimedBy handle.consumer now).toDelivery,
          store.withClaim row handle.consumer now) := by
  have guard : store.reachQueue .claim = .ok () := Store.reachQueue_eq_ok.2 reached
  unfold claim
  simp only [guard]
  cases store.messages.find? (handle.mayClaim store now) <;> rfl

/-- A claim takes the first row that the handle may claim. -/
theorem claim_eq (handle : QueueHandle) (now : Int) (reached : store.reaches [.requests] = true) :
    (handle.claim now store = .ok (none, store) ∧
      ∀ row ∈ store.messages, ¬handle.mayClaim store now row = true) ∨
    ∃ before row after, store.messages = before ++ row :: after ∧
      handle.mayClaim store now row = true ∧
      (∀ earlier ∈ before, ¬handle.mayClaim store now earlier = true) ∧
      handle.claim now store = .ok (some (row.claimedBy handle.consumer now).toDelivery,
        store.withClaim row handle.consumer now) := by
  rw [handle.claim_of_reached now reached]
  cases found : store.messages.find? (handle.mayClaim store now) with
  | none => exact Or.inl ⟨rfl, by simpa using List.find?_eq_none.1 found⟩
  | some row =>
    right
    obtain ⟨may, before, after, split, earlier⟩ := List.find?_eq_some_iff_append.1 found
    refine ⟨before, row, after, split, may, fun other inBefore => ?_, rfl⟩
    simpa using earlier other inBefore

theorem claim_eq_error (handle : QueueHandle) (now : Int)
    (unreached : ¬store.reaches [.requests] = true) :
    handle.claim now store = .error (.transportUnavailable (.queue .claim)) := by
  unfold claim Store.reachQueue
  simp only [unreached]
  rfl

theorem claim_unreached (handle : QueueHandle) (now : Int)
    (unreached : ¬store.reaches [.requests] = true) : ∃ e, handle.claim now store = .error e :=
  ⟨_, handle.claim_eq_error now unreached⟩

theorem acknowledge_of_reached (handle : QueueHandle) (receipt : Int)
    (reached : store.reaches [.requests] = true) :
    handle.acknowledge receipt store = .ok (store.withoutHeld receipt handle.consumer) := by
  have guard : store.reachQueue .acknowledge = .ok () := Store.reachQueue_eq_ok.2 reached
  unfold acknowledge
  simp only [guard]
  rfl

theorem acknowledge_eq (handle : QueueHandle) (receipt : Int) (store : Store) :
    handle.acknowledge receipt store = .ok (store.withoutHeld receipt handle.consumer) ∨
      ∃ e, handle.acknowledge receipt store = .error e := by
  by_cases reached : store.reaches [.requests] = true
  · exact Or.inl (handle.acknowledge_of_reached receipt reached)
  · right
    refine ⟨.transportUnavailable (.queue .acknowledge), ?_⟩
    unfold acknowledge Store.reachQueue
    simp only [reached]
    rfl

end QueueHandle
end ExpenseLedger
