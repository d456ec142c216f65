import ExpenseLedger.Proofs.Request.Run
import Mathlib.Data.List.Forall2
import Mathlib.Data.List.Induction

/-!
# The streams of a queue do not interfere

The shared stream and the private ones lie in one table and take their numbers from one counter.
Here a run is a list of steps in which an acknowledgement names the claim whose delivery it is for,
so that steps can be left out. `streams_do_not_interfere` leaves out all steps of the handles of
other streams: the handles of the stream see the same, but for the numbers of the messages.

A claim only looks at rows of its own stream. An acknowledgement does not look at streams at all,
only at the consumer that holds a row; that a consumer only ever holds rows of its own stream is
the invariant `StreamRun.Separate`.
-/

namespace ExpenseLedger

/-- What is asked of a handle; an acknowledgement is for what a handle got by one of its claims,
which are counted from zero. -/
inductive StreamCall where
  | publish (request : ReportRequest)
  | claim
  | acknowledge (holder : QueueHandle) (claim : Nat)

/-- One step on the queue, at a time of the clock in milliseconds. -/
structure StreamStep where
  time : Int
  handle : QueueHandle
  call : StreamCall

/-- What is seen of a step: what it answered, and the rows that it took away. -/
structure Sighting where
  step : StreamStep
  answer : Outcome (Option Delivery)
  removed : List QueuedMessage

/-- The queue, and what has been seen of it. -/
structure StreamRun where
  store : Store
  seen : List Sighting := []

/-- The step is a claim of a handle. -/
def StreamStep.isClaimOf (step : StreamStep) (holder : QueueHandle) : Bool :=
  match step.call with
  | .claim => decide (step.handle = holder)
  | _ => false

/-- What was handed out by the step. -/
def Sighting.delivery? (sighting : Sighting) : Option Delivery :=
  match sighting.answer with
  | .ok delivery => delivery
  | .error _ => none

/-- What a handle got by one of its claims. -/
def deliveryTo (seen : List Sighting) (holder : QueueHandle) (claim : Nat) : Option Delivery :=
  (seen.filter fun sighting => sighting.step.isClaimOf holder)[claim]?.bind Sighting.delivery?

namespace StreamStep

/-- Acts on the tables. Without a delivery there is nothing to acknowledge. -/
def perform (step : StreamStep) (seen : List Sighting) (store : Store) :
    Outcome (Option Delivery) × Store :=
  match step.call with
  | .publish request =>
    let (published, after) := step.handle.publish request step.time store
    (published.map fun _ => none, after)
  | .claim =>
    match step.handle.claim step.time store with
    | .ok (delivery, after) => (.ok delivery, after)
    | .error e => (.error e, store)
  | .acknowledge holder claim =>
    match deliveryTo seen holder claim with
    | none => (.ok none, store)
    | some delivery =>
      match step.handle.acknowledge delivery.receipt store with
      | .ok after => (.ok none, after)
      | .error e => (.error e, store)

/-- The step is one of a handle of the stream. -/
def isOf (step : StreamStep) (stream : Option Nat) : Bool :=
  decide (step.handle.owner = stream)

end StreamStep

namespace StreamRun

/-- The run after one more step. -/
def step (run : StreamRun) (step : StreamStep) : StreamRun :=
  let (answer, after) := step.perform run.seen run.store
  { store := after, seen := run.seen ++ [{ step, answer, removed := after.arrivals run.store }] }

/-- The run of a list of steps, from a table on. -/
def ofSteps (start : Store) (steps : List StreamStep) : StreamRun :=
  steps.foldl step { store := start }

end StreamRun

/-- Pairs of the numbers that one message has in two runs. -/
abbrev Renaming := List (Int × Int)

/-- The renaming keeps the order of the numbers. -/
def Renaming.Ordered (pairs : Renaming) : Prop :=
  pairs.Pairwise fun a b => a.1 < b.1 ∧ a.2 < b.2

/-- The rows differ in their numbers alone, which are paired. -/
inductive QueuedMessage.Twin (pairs : Renaming) : QueuedMessage → QueuedMessage → Prop
  | intro (row : QueuedMessage) (seq : Int) (paired : (seq, row.seq) ∈ pairs) :
      Twin pairs { row with seq } row

/-- The deliveries differ in their receipts alone, which are paired. -/
inductive Delivery.Twin (pairs : Renaming) : Delivery → Delivery → Prop
  | intro (delivery : Delivery) (receipt : Int) (paired : (receipt, delivery.receipt) ∈ pairs) :
      Twin pairs { delivery with receipt } delivery

/-- The answers are the same but for a receipt. -/
inductive TwinAnswers (pairs : Renaming) :
    Outcome (Option Delivery) → Outcome (Option Delivery) → Prop
  | failed (e : Error) : TwinAnswers pairs (.error e) (.error e)
  | nothing : TwinAnswers pairs (.ok none) (.ok none)
  | delivered {delivery other : Delivery} (twin : delivery.Twin pairs other) :
      TwinAnswers pairs (.ok (some delivery)) (.ok (some other))

/-- The same has been seen of the same step, but for the numbers of the messages. -/
structure Sighting.Twin (pairs : Renaming) (sighting other : Sighting) : Prop where
  step : sighting.step = other.step
  answer : TwinAnswers pairs sighting.answer other.answer
  removed : List.Forall₂ (QueuedMessage.Twin pairs) sighting.removed other.removed

/-! ## Renamings -/

section Renamings

variable {pairs : Renaming} {a b : Int × Int}

theorem Renaming.Ordered.lt_iff (ordered : pairs.Ordered) (ha : a ∈ pairs)
    (hb : b ∈ pairs) : a.1 < b.1 ↔ a.2 < b.2 := by
  induction pairs with
  | nil => cases ha
  | cons first rest ih =>
    obtain ⟨below, tail⟩ := List.pairwise_cons.1 ordered
    rcases List.mem_cons.1 ha with rfl | ha' <;> rcases List.mem_cons.1 hb with rfl | hb'
    · omega
    · have := below b hb'
      omega
    · have := below a ha'
      omega
    · exact ih tail ha' hb'

theorem Renaming.Ordered.eq_iff (ordered : pairs.Ordered) (ha : a ∈ pairs)
    (hb : b ∈ pairs) : a.1 = b.1 ↔ a.2 = b.2 := by
  have := ordered.lt_iff ha hb
  have := ordered.lt_iff hb ha
  omega

theorem Renaming.Ordered.append (ordered : pairs.Ordered) {next : Int × Int}
    (beyond : ∀ pair ∈ pairs, pair.1 < next.1 ∧ pair.2 < next.2) :
    Renaming.Ordered (pairs ++ [next]) := by
  refine List.pairwise_append.2 ⟨ordered, List.pairwise_singleton _ _, ?_⟩
  intro pair member last inLast
  rw [List.mem_singleton.1 inLast]
  exact beyond pair member

/-- Of a step that is seen alike the deliveries are alike. -/
theorem Sighting.Twin.delivery? {sighting other : Sighting} (twin : sighting.Twin pairs other) :
    Option.Rel (Delivery.Twin pairs) sighting.delivery? other.delivery? := by
  have answer := twin.answer
  unfold Sighting.delivery?
  generalize sighting.answer = found at answer
  generalize other.answer = found' at answer
  cases answer with
  | failed e => exact .none
  | nothing => exact .none
  | delivered twin => exact .some twin

variable {pairs' : Renaming} (more : pairs ⊆ pairs')

include more

theorem QueuedMessage.Twin.mono {row other : QueuedMessage} (twin : row.Twin pairs other) :
    row.Twin pairs' other := by
  cases twin with
  | intro row seq paired => exact .intro _ seq (more paired)

theorem TwinAnswers.mono {answer other : Outcome (Option Delivery)}
    (twin : TwinAnswers pairs answer other) : TwinAnswers pairs' answer other := by
  cases twin with
  | failed e => exact .failed e
  | nothing => exact .nothing
  | delivered twin =>
    cases twin with
    | intro delivery receipt paired => exact .delivered (.intro _ receipt (more paired))

theorem Sighting.Twin.mono {sighting other : Sighting} (twin : sighting.Twin pairs other) :
    sighting.Twin pairs' other where
  step := twin.step
  answer := twin.answer.mono more
  removed := twin.removed.imp fun _ _ row => row.mono more

end Renamings

/-! ## One run -/

/-- What a step can do to the queue. -/
inductive StreamStep.Effect (step : StreamStep) (store : Store) :
    Outcome (Option Delivery) × Store → Prop
  | failed (e : Error) : Effect step store (.error e, store)
  | nothing : Effect step store (.ok none, store)
  | published (row : QueuedMessage) (seq : row.seq = store.nextMessage)
      (owner : row.owner = step.handle.owner) (unclaimed : row.claim = none) :
      Effect step store (.ok none, store.withRow row)
  | delivered (row : QueuedMessage) (reached : store.reaches [.requests] = true)
      (member : row ∈ store.messages)
      (may : step.handle.mayClaim store step.time row = true) :
      Effect step store (.ok (some (row.claimedBy step.handle.consumer step.time).toDelivery),
        store.withClaim row step.handle.consumer step.time)
  | acknowledged (receipt : Int) :
      Effect step store (.ok none, store.withoutHeld receipt step.handle.consumer)

theorem StreamStep.perform_effect (step : StreamStep) (seen : List Sighting) (store : Store) :
    step.Effect store (step.perform seen store) := by
  unfold perform
  cases step.call with
  | publish request =>
    rcases step.handle.publish_eq request step.time store with ⟨-, done⟩ | ⟨-, e, failed⟩
    · simp only [done]
      exact .published _ rfl rfl rfl
    · simp only [failed]
      exact .failed e
  | claim =>
    by_cases reached : store.reaches [.requests] = true
    · rcases step.handle.claim_eq step.time reached with
        ⟨claimed, -⟩ | ⟨before, row, after, split, may, -, claimed⟩
      · simp only [claimed]
        exact .nothing
      · simp only [claimed]
        exact .delivered row reached (by simp [split]) may
    · obtain ⟨e, failed⟩ := step.handle.claim_unreached step.time reached
      simp only [failed]
      exact .failed e
  | acknowledge holder claim =>
    cases found : deliveryTo seen holder claim with
    | none =>
      simp only [found]
      exact .nothing
    | some delivery =>
      rcases step.handle.acknowledge_eq delivery.receipt store with done | ⟨e, failed⟩
      · simp only [found, done]
        exact .acknowledged _
      · simp only [found, failed]
        exact .failed e

/-- Handles of different streams are different consumers. -/
def Apart (handles : List QueueHandle) : Prop :=
  ∀ a ∈ handles, ∀ b ∈ handles, a.consumer = b.consumer → a.owner = b.owner

namespace StreamRun

/-- Consumers hold and are handed rows of their own streams only. -/
structure Separate (run : StreamRun) (handles : List QueueHandle) : Prop where
  lined : run.store.Lined
  held : ∀ row ∈ run.store.messages, ∀ claim, row.claim = some claim →
    ∃ handle ∈ handles, handle.owner = row.owner ∧ handle.consumer = claim.consumer
  handed : ∀ sighting ∈ run.seen, ∀ delivery, sighting.answer = .ok (some delivery) →
    run.store.reaches [.requests] = true ∧ delivery.receipt < run.store.nextMessage ∧
      ∀ row ∈ run.store.messages, row.seq = delivery.receipt →
        row.owner = sighting.step.handle.owner

section Separate

variable {store : Store} {seen : List Sighting} {handles : List QueueHandle}
  {handle : QueueHandle} {row : QueuedMessage} {now receipt : Int} {stream : Option Nat}
  (separate : Separate { store, seen } handles)

include separate

/-- What a consumer holds is of its own stream. -/
theorem Separate.owner_of_held (apart : Apart handles) (member : handle ∈ handles)
    (inTable : row ∈ store.messages) (held : row.isHeldBy receipt handle.consumer = true) :
    row.owner = handle.owner := by
  obtain ⟨-, claim, claimed, consumer⟩ := QueuedMessage.isHeldBy_iff.1 held
  obtain ⟨holder, holderIn, owner, same⟩ := separate.held row inTable claim claimed
  rw [← owner]
  exact apart holder holderIn handle member (same.trans consumer)

theorem Separate.see {sighting : Sighting}
    (new : ∀ delivery, sighting.answer = .ok (some delivery) →
      store.reaches [.requests] = true ∧ ∃ row ∈ store.messages, row.seq = delivery.receipt ∧
        row.owner = sighting.step.handle.owner) :
    Separate { store, seen := seen ++ [sighting] } handles where
  lined := separate.lined
  held := separate.held
  handed := by
    intro other member delivery answer
    rcases List.mem_append.1 member with old | isNew
    · exact separate.handed other old delivery answer
    · rw [List.mem_singleton.1 isNew] at answer ⊢
      obtain ⟨reached, row, rowIn, same, owner⟩ := new delivery answer
      refine ⟨reached, same ▸ separate.lined.fresh row rowIn, fun twin twinIn twinSame => ?_⟩
      rw [separate.lined.ascending.eq_of_key_eq twinIn rowIn (twinSame.trans same.symm)]
      exact owner

theorem Separate.withRow (seq : row.seq = store.nextMessage) (unclaimed : row.claim = none) :
    Separate { store := store.withRow row, seen } handles where
  lined := separate.lined.withRow seq unclaimed
  held := by
    intro other member claim claimed
    rcases List.mem_append.1 member with old | new
    · exact separate.held other old claim claimed
    · rw [List.mem_singleton.1 new, unclaimed] at claimed
      cases claimed
  handed := by
    intro sighting member delivery answer
    obtain ⟨reached, below, owned⟩ := separate.handed sighting member delivery answer
    change delivery.receipt < store.nextMessage at below
    refine ⟨reached, Int.lt_trans below (Int.lt_succ _), fun other otherIn same => ?_⟩
    rcases List.mem_append.1 otherIn with old | new
    · exact owned other old same
    · rw [List.mem_singleton.1 new] at same
      omega

theorem Separate.withClaim (member : handle ∈ handles) (inTable : row ∈ store.messages)
    (may : handle.mayClaim store now row = true) :
    Separate { store := store.withClaim row handle.consumer now, seen } handles where
  lined := separate.lined.withClaim inTable (QueueHandle.mayClaim_iff.1 may).2.1
  held := by
    intro other otherIn claim claimed
    rcases Store.mem_withClaim.1 otherIn with ⟨old, -⟩ | ⟨rfl, -⟩
    · exact separate.held other old claim claimed
    · cases claimed
      exact ⟨handle, member, (QueueHandle.mayClaim_iff.1 may).1.symm, rfl⟩
  handed := by
    intro sighting sightingIn delivery answer
    obtain ⟨reached, below, owned⟩ := separate.handed sighting sightingIn delivery answer
    refine ⟨reached, below, fun other otherIn same => ?_⟩
    rcases Store.mem_withClaim.1 otherIn with ⟨old, -⟩ | ⟨rfl, -⟩
    · exact owned other old same
    · exact owned row inTable same

theorem Separate.withoutHeld {consumer : Nat} :
    Separate { store := store.withoutHeld receipt consumer, seen } handles where
  lined := separate.lined.withoutHeld
  held := fun other otherIn => separate.held other (List.mem_filter.1 otherIn).1
  handed := by
    intro sighting sightingIn delivery answer
    obtain ⟨reached, below, owned⟩ := separate.handed sighting sightingIn delivery answer
    exact ⟨reached, below, fun other otherIn => owned other (List.mem_filter.1 otherIn).1⟩

end Separate

theorem Separate.step {run : StreamRun} {handles : List QueueHandle}
    (separate : run.Separate handles) {step : StreamStep} (member : step.handle ∈ handles) :
    (run.step step).Separate handles := by
  have effect := step.perform_effect run.seen run.store
  unfold StreamRun.step
  generalize step.perform run.seen run.store = outcome at effect
  cases effect with
  | failed e => exact separate.see nofun
  | nothing => exact separate.see nofun
  | published row seq owner unclaimed => exact (separate.withRow seq unclaimed).see nofun
  | delivered row reached inTable may =>
    refine (separate.withClaim member inTable may).see fun delivery answer => ?_
    cases answer
    exact ⟨reached, _, Store.mem_withClaim.2 (Or.inr ⟨rfl, row, inTable, rfl⟩), rfl,
      (QueueHandle.mayClaim_iff.1 may).1⟩
  | acknowledged receipt => exact separate.withoutHeld.see nofun

end StreamRun

/-! ## Steps of other streams -/

namespace StreamRun

variable {run alone : StreamRun} {handles : List QueueHandle} {step : StreamStep}
  {stream : Option Nat}

/-- A step of another stream leaves the rows of the stream alone. -/
theorem Separate.stream_of_foreign (separate : run.Separate handles) (apart : Apart handles)
    (member : step.handle ∈ handles) (foreign : step.handle.owner ≠ stream) :
    (run.step step).store.stream stream = run.store.stream stream := by
  have effect := step.perform_effect run.seen run.store
  unfold StreamRun.step
  generalize step.perform run.seen run.store = outcome at effect
  cases effect with
  | failed e => rfl
  | nothing => rfl
  | published row seq owner unclaimed => exact Store.stream_withRow_of_ne (owner ▸ foreign)
  | delivered row reached inTable may =>
    have owner := (QueueHandle.mayClaim_iff.1 may).1
    exact Store.stream_withClaim_of_ne separate.lined.ascending inTable (owner ▸ foreign)
  | acknowledged receipt =>
    refine Store.stream_withoutHeld.trans (List.filter_eq_self.2 fun row inStream => ?_)
    obtain ⟨inTable, own⟩ := Store.mem_stream.1 inStream
    cases held : row.isHeldBy receipt step.handle.consumer with
    | false => rfl
    | true => exact absurd (separate.owner_of_held apart member inTable held) (own ▸ foreign.symm)

/-- A step gives at most one number and reaches the tables that were within reach. -/
theorem step_frame (run : StreamRun) (step : StreamStep) :
    (run.step step).store.outOfReach = run.store.outOfReach ∧
      run.store.nextMessage ≤ (run.step step).store.nextMessage ∧
      (run.step step).store.nextMessage ≤ run.store.nextMessage + 1 := by
  have effect := step.perform_effect run.seen run.store
  unfold StreamRun.step
  generalize step.perform run.seen run.store = outcome at effect
  cases effect with
  | published row seq owner unclaimed =>
    exact ⟨rfl, Int.le_of_lt (Int.lt_succ _), Int.le_refl _⟩
  | _ => exact ⟨rfl, Int.le_refl _, Int.le_of_lt (Int.lt_succ _)⟩

end StreamRun

/-! ## Two runs -/

/-- Related lists have related elements at each place. -/
theorem rel_getElem? {α β : Type} {R : α → β → Prop} {as : List α} {bs : List β}
    (related : List.Forall₂ R as bs) (place : Nat) : Option.Rel R as[place]? bs[place]? := by
  induction related generalizing place with
  | nil => exact .none
  | cons head tail ih =>
    cases place with
    | zero => exact .some head
    | succ place => exact ih place

/-- Each element of a list is related to one of a related list. -/
theorem exists_related {α β : Type} {R : α → β → Prop} {as : List α} {bs : List β}
    (related : List.Forall₂ R as bs) {a : α} (member : a ∈ as) : ∃ b ∈ bs, R a b := by
  induction related with
  | nil => cases member
  | cons head tail ih =>
    rcases List.mem_cons.1 member with rfl | inTail
    · exact ⟨_, List.mem_cons_self, head⟩
    · obtain ⟨b, inRest, found⟩ := ih inTail
      exact ⟨b, List.mem_cons_of_mem _ inRest, found⟩

/-- An acknowledgement takes away what is held. -/
theorem Store.arrivals_of_withoutHeld {store : Store} (lined : store.Lined) {receipt : Int}
    {consumer : Nat} :
    (store.withoutHeld receipt consumer).arrivals store =
      store.messages.filter fun row => row.isHeldBy receipt consumer := by
  apply List.filter_congr
  intro row inTable
  cases held : row.isHeldBy receipt consumer with
  | true =>
    have alone := Store.arrivals_withoutHeld lined inTable held
    have : row ∈ (store.withoutHeld receipt consumer).arrivals store := by simp [alone]
    exact (List.mem_filter.1 this).2
  | false =>
    have stays : row ∈ (store.withoutHeld receipt consumer).messages :=
      List.mem_filter.2 ⟨inTable, by simp [held]⟩
    simpa using ⟨row, stays, rfl⟩

/-- The second queue has the rows of a stream of the first and no others, under paired numbers. -/
structure Store.Mirrors (pairs : Renaming) (stream : Option Nat) (store alone : Store) : Prop where
  ordered : pairs.Ordered
  below : ∀ pair ∈ pairs, pair.1 < store.nextMessage ∧ pair.2 < alone.nextMessage
  rows : List.Forall₂ (QueuedMessage.Twin pairs) (store.stream stream) alone.messages
  reach : store.outOfReach = alone.outOfReach

/-- An action on the one queue does and answers the same as one on the other. -/
structure ActsAlike (pairs : Renaming) (stream : Option Nat) (store alone : Store)
    (outcome other : Outcome (Option Delivery) × Store) : Prop where
  mirrors : Store.Mirrors pairs stream outcome.2 other.2
  answer : TwinAnswers pairs outcome.1 other.1
  removed : List.Forall₂ (QueuedMessage.Twin pairs) (outcome.2.arrivals store)
    (other.2.arrivals alone)

namespace Store.Mirrors

variable {pairs : Renaming} {stream : Option Nat} {store alone : Store}
  (mirrors : Store.Mirrors pairs stream store alone)

include mirrors

theorem reaches_eq (tables : List Table) : store.reaches tables = alone.reaches tables := by
  unfold Store.reaches
  rw [mirrors.reach]

theorem idle {answer other : Outcome (Option Delivery)} (twin : TwinAnswers pairs answer other) :
    ActsAlike pairs stream store alone (answer, store) (other, alone) where
  mirrors := mirrors
  answer := twin
  removed := by
    rw [Store.arrivals_self, Store.arrivals_self]
    exact .nil

/-- Both queues give a row their next numbers. -/
theorem withRow (row : QueuedMessage) {seq : Int} (own : row.owner = stream)
    (first : seq = store.nextMessage) (second : row.seq = alone.nextMessage) :
    ActsAlike (pairs ++ [(seq, row.seq)]) stream store alone
      (.ok none, store.withRow { row with seq }) (.ok none, alone.withRow row) where
  mirrors :=
    { ordered := mirrors.ordered.append fun pair member => by
        have := mirrors.below pair member
        exact ⟨first ▸ this.1, second ▸ this.2⟩
      below := by
        intro pair member
        show pair.1 < store.nextMessage + 1 ∧ pair.2 < alone.nextMessage + 1
        rcases List.mem_append.1 member with old | new
        · have := mirrors.below pair old
          omega
        · rw [List.mem_singleton.1 new]
          omega
      rows := by
        show List.Forall₂ _ ((store.withRow _).stream stream) (alone.messages ++ [row])
        have sameOwner : QueuedMessage.owner { row with seq } = stream := own
        rw [Store.stream_withRow_self sameOwner]
        refine List.rel_append (mirrors.rows.imp fun _ _ twin => ?_) ?_
        · exact twin.mono (List.subset_append_left _ _)
        · exact .cons (.intro row seq (List.mem_append_right _ List.mem_cons_self)) .nil
      reach := mirrors.reach }
  answer := .nothing
  removed := by
    rw [Store.arrivals_withRow_right, Store.arrivals_withRow_right]
    exact .nil

theorem oldest_iff {row other : QueuedMessage} (twin : row.Twin pairs other)
    (own : row.owner = stream) : store.Oldest row ↔ alone.Oldest other := by
  cases twin with
  | intro other seq paired =>
    constructor
    · intro oldest rival inTable line
      obtain ⟨twin, inStream, twins⟩ := exists_related mirrors.rows.flip inTable
      cases twins with
      | intro rival rivalSeq rivalPaired =>
        have := oldest _ (Store.mem_stream.1 inStream).1 line
        have := mirrors.ordered.lt_iff rivalPaired paired
        change seq ≤ rivalSeq at *
        omega
    · intro oldest rival inTable line
      have inStream := Store.mem_stream.2 ⟨inTable, line.1.trans own⟩
      obtain ⟨twin, twinIn, twins⟩ := exists_related mirrors.rows inStream
      cases twins with
      | intro rival rivalSeq rivalPaired =>
        have := oldest _ twinIn line
        have := mirrors.ordered.lt_iff rivalPaired paired
        show seq ≤ rivalSeq
        omega

theorem mayClaim_iff {handle : QueueHandle} {now : Int} {row other : QueuedMessage}
    (twin : row.Twin pairs other) (own : row.owner = stream) :
    handle.mayClaim store now row = true ↔ handle.mayClaim alone now other = true := by
  rw [QueueHandle.mayClaim_iff, QueueHandle.mayClaim_iff, mirrors.oldest_iff twin own]
  cases twin with
  | intro other seq paired => exact Iff.rfl

/-- Both queues show a handle of the stream the same first row to claim. -/
theorem find_mayClaim {handle : QueueHandle} (own : handle.owner = stream) (now : Int) :
    Option.Rel (fun row other => row.owner = stream ∧ row.Twin pairs other)
      (store.messages.find? (handle.mayClaim store now))
      (alone.messages.find? (handle.mayClaim alone now)) := by
  have owned := (List.forall₂_and_left _ _).2
    ⟨fun row inStream => (Store.mem_stream.1 inStream).2, mirrors.rows⟩
  have claimable := List.rel_filter (p := handle.mayClaim store now)
    (q := handle.mayClaim alone now)
    (fun _ _ twin => mirrors.mayClaim_iff twin.2 twin.1) owned
  rw [Store.find_mayClaim, own, ← List.head?_filter, ← List.head?_filter, List.head?_eq_getElem?,
    List.head?_eq_getElem?]
  exact rel_getElem? claimable 0

theorem withClaim (lined : store.Lined) {row other : QueuedMessage}
    (inTable : row ∈ store.messages) (twin : row.Twin pairs other) (consumer : Nat) (now : Int) :
    ActsAlike pairs stream store alone
      (.ok (some (row.claimedBy consumer now).toDelivery), store.withClaim row consumer now)
      (.ok (some (other.claimedBy consumer now).toDelivery), alone.withClaim other consumer now) := by
  cases twin with
  | intro other seq paired =>
    refine ⟨⟨mirrors.ordered, mirrors.below, ?_, mirrors.reach⟩, ?_, ?_⟩
    · show List.Forall₂ _ ((store.withClaim _ consumer now).stream stream) _
      rw [Store.stream_withClaim lined.ascending inTable]
      refine List.rel_map (R := QueuedMessage.Twin pairs) (fun a b twin => ?_) mirrors.rows
      cases twin with
      | intro b bSeq bPaired =>
        have same := mirrors.ordered.eq_iff bPaired paired
        by_cases target : bSeq = seq
        · rw [if_pos target, if_pos (same.1 target)]
          exact .intro (other.claimedBy consumer now) seq paired
        · rw [if_neg target, if_neg (target ∘ same.2)]
          exact .intro b bSeq bPaired
    · exact .delivered (.intro (other.claimedBy consumer now).toDelivery seq paired)
    · rw [Store.arrivals_withClaim_right, Store.arrivals_withClaim_right]
      exact .nil

theorem isHeldBy_iff {receipt receipt' : Int} (paired : (receipt, receipt') ∈ pairs)
    {row other : QueuedMessage} (twin : row.Twin pairs other) (consumer : Nat) :
    row.isHeldBy receipt consumer = true ↔ other.isHeldBy receipt' consumer = true := by
  cases twin with
  | intro other seq twinPaired =>
    rw [QueuedMessage.isHeldBy_iff, QueuedMessage.isHeldBy_iff]
    exact and_congr_left' (mirrors.ordered.eq_iff twinPaired paired)

theorem withoutHeld (lined : store.Lined) (lined' : alone.Lined) {receipt receipt' : Int}
    (paired : (receipt, receipt') ∈ pairs) {consumer : Nat}
    (owned : ∀ row ∈ store.messages, row.isHeldBy receipt consumer = true → row.owner = stream) :
    ActsAlike pairs stream store alone (.ok none, store.withoutHeld receipt consumer)
      (.ok none, alone.withoutHeld receipt' consumer) := by
  have held : ∀ a b : QueuedMessage, a.Twin pairs b →
      (a.isHeldBy receipt consumer = true ↔ b.isHeldBy receipt' consumer = true) :=
    fun _ _ twin => mirrors.isHeldBy_iff paired twin consumer
  refine ⟨⟨mirrors.ordered, mirrors.below, ?_, mirrors.reach⟩, .nothing, ?_⟩
  · show List.Forall₂ _ ((store.withoutHeld receipt consumer).stream stream) _
    rw [Store.stream_withoutHeld]
    exact List.rel_filter (fun a b twin => by simpa using not_congr (held a b twin)) mirrors.rows
  · have taken : store.messages.filter (fun row => row.isHeldBy receipt consumer) =
        (store.stream stream).filter fun row => row.isHeldBy receipt consumer := by
      rw [Store.stream, List.filter_filter]
      refine List.filter_congr fun row inTable => ?_
      rw [Bool.eq_iff_iff, Bool.and_eq_true, decide_eq_true_eq]
      exact ⟨fun isHeld => ⟨isHeld, owned row inTable isHeld⟩, And.left⟩
    rw [Store.arrivals_of_withoutHeld lined, Store.arrivals_of_withoutHeld lined', taken]
    exact List.rel_filter held mirrors.rows

end Store.Mirrors

theorem StreamStep.isClaimOf_iff {step : StreamStep} {holder : QueueHandle} :
    step.isClaimOf holder = true ↔ step.call = .claim ∧ step.handle = holder := by
  unfold isClaimOf
  cases step.call <;> simp

/-- A delivery was made to the handle that is asked about. -/
theorem deliveryTo_eq_some {seen : List Sighting} {holder : QueueHandle} {claim : Nat}
    {delivery : Delivery} (found : deliveryTo seen holder claim = some delivery) :
    ∃ sighting ∈ seen, sighting.step.handle = holder ∧
      sighting.answer = .ok (some delivery) := by
  obtain ⟨sighting, place, handed⟩ := Option.bind_eq_some_iff.1 found
  obtain ⟨member, isClaim⟩ := List.mem_filter.1 (List.mem_of_getElem? place)
  refine ⟨sighting, member, (StreamStep.isClaimOf_iff.1 isClaim).2, ?_⟩
  unfold Sighting.delivery? at handed
  split at handed
  · next answer => rw [answer, handed]
  · cases handed

namespace StreamRun

/-- The second run has seen what the handles of a stream saw in the first, and its queue has the
rows of the stream. -/
structure Mirrors (pairs : Renaming) (stream : Option Nat) (run alone : StreamRun) : Prop where
  store : Store.Mirrors pairs stream run.store alone.store
  seen : List.Forall₂ (Sighting.Twin pairs)
    (run.seen.filter fun sighting => sighting.step.isOf stream) alone.seen

section Mirrors

variable {pairs : Renaming} {stream : Option Nat} {run alone : StreamRun}
  {handles : List QueueHandle} {step : StreamStep}
  (mirrors : Mirrors pairs stream run alone)

include mirrors

/-- A handle of the stream got the same by its claims. -/
theorem Mirrors.deliveryTo_own {holder : QueueHandle} (own : holder.owner = stream) (claim : Nat) :
    Option.Rel (Delivery.Twin pairs) (deliveryTo run.seen holder claim)
      (deliveryTo alone.seen holder claim) := by
  have claims : run.seen.filter (fun sighting => sighting.step.isClaimOf holder) =
      (run.seen.filter fun sighting => sighting.step.isOf stream).filter
        fun sighting => sighting.step.isClaimOf holder := by
    rw [List.filter_filter]
    refine List.filter_congr fun sighting _ => ?_
    rw [Bool.eq_iff_iff, Bool.and_eq_true]
    refine ⟨fun isClaim => ⟨isClaim, ?_⟩, And.left⟩
    simpa [StreamStep.isOf, (StreamStep.isClaimOf_iff.1 isClaim).2] using own
  have same := List.rel_filter (R := Sighting.Twin pairs)
    (p := fun sighting => sighting.step.isClaimOf holder)
    (q := fun sighting => sighting.step.isClaimOf holder)
    (fun a b (twin : a.Twin pairs b) => by simp only [twin.step]) mirrors.seen
  have found := rel_getElem? same claim
  unfold deliveryTo
  rw [claims]
  generalize List.filter _ (List.filter _ run.seen) = claimed at found
  generalize claimed[claim]? = sighting at found
  generalize (List.filter _ alone.seen)[claim]? = other at found
  cases found with
  | none => exact .none
  | some twin => exact twin.delivery?

/-- A handle of another stream got nothing in the second run. -/
theorem Mirrors.deliveryTo_foreign {holder : QueueHandle} (foreign : holder.owner ≠ stream)
    (claim : Nat) : deliveryTo alone.seen holder claim = none := by
  apply Option.eq_none_iff_forall_ne_some.2
  intro delivery found
  obtain ⟨sighting, member, handle, -⟩ := deliveryTo_eq_some found
  obtain ⟨twin, inStream, twins⟩ := exists_related mirrors.seen.flip member
  have own : twin.step.handle.owner = stream := by
    simpa [StreamStep.isOf] using (List.mem_filter.1 inStream).2
  rw [twins.step, handle] at own
  exact foreign own

/-- A step of the stream does the same in both runs. -/
theorem Mirrors.perform (separate : run.Separate handles) (separate' : alone.Separate handles)
    (apart : Apart handles) (member : step.handle ∈ handles) (own : step.handle.owner = stream)
    (fits : FitsInt64 run.store.nextMessage) (fits' : FitsInt64 alone.store.nextMessage) :
    ∃ pairs', pairs ⊆ pairs' ∧ ActsAlike pairs' stream run.store alone.store
      (step.perform run.seen run.store) (step.perform alone.seen alone.store) := by
  have reaches := mirrors.store.reaches_eq [.requests]
  cases asked : step.call with
  | publish request =>
    obtain ⟨e, published⟩ := step.handle.publish_uniform request step.time
    rcases published run.store with ⟨accepts, done⟩ | ⟨refuses, failed⟩
    · have accepts' : alone.store.AcceptsMessages := ⟨reaches ▸ accepts.1, fits'⟩
      have done' := (published alone.store).resolve_right fun h => h.1 accepts'
      simp only [StreamStep.perform, asked, done, done'.2]
      have alike := mirrors.store.withRow
        (alone.store.nextRow (.encode request) step.handle.owner step.time) own rfl rfl
      exact ⟨_, List.subset_append_left _ _, alike⟩
    · have refuses' : ¬alone.store.AcceptsMessages := fun h => refuses ⟨reaches ▸ h.1, fits⟩
      have failed' := (published alone.store).resolve_left fun h => refuses' h.1
      simp only [StreamStep.perform, asked, failed, failed'.2]
      exact ⟨pairs, List.Subset.refl _, mirrors.store.idle (.failed e)⟩
  | claim =>
    refine ⟨pairs, List.Subset.refl _, ?_⟩
    by_cases reached : run.store.reaches [.requests] = true
    · have first := mirrors.store.find_mayClaim own step.time
      simp only [StreamStep.perform, asked, step.handle.claim_of_reached step.time reached,
        step.handle.claim_of_reached step.time (reaches ▸ reached)]
      generalize found : run.store.messages.find? _ = row at first
      generalize alone.store.messages.find? _ = other at first
      cases first with
      | none => exact mirrors.store.idle .nothing
      | some twin =>
        exact mirrors.store.withClaim separate.lined (List.mem_of_find?_eq_some found) twin.2 _ _
    · simp only [StreamStep.perform, asked, step.handle.claim_eq_error step.time reached,
        step.handle.claim_eq_error step.time (reaches ▸ reached)]
      exact mirrors.store.idle (.failed _)
  | acknowledge holder claim =>
    refine ⟨pairs, List.Subset.refl _, ?_⟩
    have owned : ∀ receipt, ∀ row ∈ run.store.messages,
        row.isHeldBy receipt step.handle.consumer = true → row.owner = stream :=
      fun receipt row inTable held => (separate.owner_of_held apart member inTable held).trans own
    simp only [StreamStep.perform, asked]
    by_cases ours : holder.owner = stream
    · have handed := mirrors.deliveryTo_own ours claim
      generalize found : deliveryTo run.seen holder claim = delivery at handed
      generalize deliveryTo alone.seen holder claim = other at handed
      cases handed with
      | none => exact mirrors.store.idle .nothing
      | some twin =>
        obtain ⟨sighting, inSeen, -, answer⟩ := deliveryTo_eq_some found
        have reached := (separate.handed sighting inSeen _ answer).1
        simp only [step.handle.acknowledge_of_reached _ reached,
          step.handle.acknowledge_of_reached _ (reaches ▸ reached)]
        cases twin with
        | intro other receipt paired =>
          exact mirrors.store.withoutHeld separate.lined separate'.lined paired (owned receipt)
    · rw [mirrors.deliveryTo_foreign ours]
      cases found : deliveryTo run.seen holder claim with
      | none => exact mirrors.store.idle .nothing
      | some delivery =>
        obtain ⟨sighting, inSeen, handle, answer⟩ := deliveryTo_eq_some found
        obtain ⟨reached, -, foreign⟩ := separate.handed sighting inSeen _ answer
        have unheld : ∀ row ∈ run.store.messages,
            ¬row.isHeldBy delivery.receipt step.handle.consumer = true := by
          intro row inTable held
          have := foreign row inTable (QueuedMessage.isHeldBy_iff.1 held).1
          rw [handle, owned _ row inTable held] at this
          exact ours this.symm
        simp only [step.handle.acknowledge_of_reached _ reached, Store.withoutHeld_eq_self unheld]
        exact mirrors.store.idle .nothing

theorem Mirrors.own (separate : run.Separate handles) (separate' : alone.Separate handles)
    (apart : Apart handles) (member : step.handle ∈ handles) (own : step.handle.owner = stream)
    (fits : FitsInt64 run.store.nextMessage) (fits' : FitsInt64 alone.store.nextMessage) :
    ∃ pairs', Mirrors pairs' stream (run.step step) (alone.step step) := by
  obtain ⟨pairs', more, alike⟩ := mirrors.perform separate separate' apart member own fits fits'
  refine ⟨pairs', alike.mirrors, ?_⟩
  have kept : (run.step step).seen.filter (fun sighting => sighting.step.isOf stream) =
      (run.seen.filter fun sighting => sighting.step.isOf stream) ++
        [{ step, answer := (step.perform run.seen run.store).1,
           removed := (step.perform run.seen run.store).2.arrivals run.store }] := by
    simp [StreamRun.step, StreamStep.isOf, own]
  rw [kept]
  refine List.rel_append (mirrors.seen.imp fun _ _ twin => twin.mono more) ?_
  exact .cons ⟨rfl, alike.answer, alike.removed⟩ .nil

/-- A step of another stream is not seen by the stream. -/
theorem Mirrors.foreign (separate : run.Separate handles) (apart : Apart handles)
    (member : step.handle ∈ handles) (foreign : step.handle.owner ≠ stream) :
    Mirrors pairs stream (run.step step) alone := by
  obtain ⟨reach, more, -⟩ := run.step_frame step
  refine ⟨⟨mirrors.store.ordered, fun pair inPairs => ?_, ?_, reach.trans mirrors.store.reach⟩, ?_⟩
  · have := mirrors.store.below pair inPairs
    omega
  · rw [separate.stream_of_foreign apart member foreign]
    exact mirrors.store.rows
  · have kept : (run.step step).seen.filter (fun sighting => sighting.step.isOf stream) =
        run.seen.filter fun sighting => sighting.step.isOf stream := by
      simp [StreamRun.step, StreamStep.isOf, foreign]
    rw [kept]
    exact mirrors.seen

end Mirrors

/-! ## Whole runs -/

variable {start : Store} {handles : List QueueHandle} {steps : List StreamStep}

theorem separate_ofSteps (empty : start.messages = [])
    (known : ∀ step ∈ steps, step.handle ∈ handles) :
    (ofSteps start steps).Separate handles := by
  have begin : Separate { store := start } handles :=
    { lined := QueueRun.lined_of_empty empty
      held := by simp [empty]
      handed := by simp }
  exact List.foldlRecOn (motive := fun run => run.Separate handles) steps StreamRun.step begin
    fun _ separate step member => separate.step (known step member)

theorem nextMessage_ofSteps (start : Store) (steps : List StreamStep) :
    start.nextMessage ≤ (ofSteps start steps).store.nextMessage ∧
      (ofSteps start steps).store.nextMessage ≤ start.nextMessage + steps.length := by
  induction steps using List.reverseRecOn with
  | nil => simp [ofSteps]
  | append_singleton before last ih =>
    have frame := step_frame (ofSteps start before) last
    unfold ofSteps at *
    rw [List.foldl_append, List.length_append]
    simp only [List.foldl_cons, List.foldl_nil, List.length_singleton]
    omega

theorem fits_ofSteps {bound : Nat} (fits : FitsInt64 start.nextMessage)
    (room : FitsInt64 (start.nextMessage + bound)) (few : steps.length ≤ bound) :
    FitsInt64 (ofSteps start steps).store.nextMessage := by
  have := nextMessage_ofSteps start steps
  unfold FitsInt64 at *
  omega

theorem mirrors_ofSteps {bound : Nat} (empty : start.messages = []) (apart : Apart handles)
    (fits : FitsInt64 start.nextMessage) (room : FitsInt64 (start.nextMessage + bound))
    (stream : Option Nat) (known : ∀ step ∈ steps, step.handle ∈ handles)
    (few : steps.length ≤ bound) :
    ∃ pairs, Mirrors pairs stream (ofSteps start steps)
      (ofSteps start (steps.filter fun step => step.isOf stream)) := by
  induction steps using List.reverseRecOn with
  | nil =>
    refine ⟨[], ⟨.nil, nofun, ?_, rfl⟩, .nil⟩
    show List.Forall₂ _ (start.messages.filter _) start.messages
    rw [empty]
    exact .nil
  | append_singleton before last ih =>
    have knownBefore := fun step member => known step (List.mem_append_left _ member)
    have knownLast : last.handle ∈ handles := known last (by simp)
    have fewer : before.length ≤ bound := by
      rw [List.length_append] at few
      omega
    have keptFewer : (before.filter fun step => step.isOf stream).length ≤ bound :=
      Nat.le_trans (List.length_filter_le _ _) fewer
    have knownKept : ∀ step ∈ before.filter fun step => step.isOf stream, step.handle ∈ handles :=
      fun step member => knownBefore step (List.mem_filter.1 member).1
    have separate := separate_ofSteps empty knownBefore
    have separate' := separate_ofSteps empty knownKept
    obtain ⟨pairs, mirrors⟩ := ih knownBefore fewer
    unfold ofSteps at *
    rw [List.foldl_append, List.filter_append]
    by_cases own : last.handle.owner = stream
    · have kept : [last].filter (fun step => step.isOf stream) = [last] := by
        simp [StreamStep.isOf, own]
      rw [kept, List.foldl_append]
      exact mirrors.own separate separate' apart knownLast own (fits_ofSteps fits room fewer)
        (fits_ofSteps fits room keptFewer)
    · have dropped : [last].filter (fun step => step.isOf stream) = [] := by
        simp [StreamStep.isOf, own]
      rw [dropped, List.append_nil]
      exact ⟨pairs, mirrors.foreign separate apart knownLast own⟩

end StreamRun

/-- **Streams.** Any steps of handles on an empty queue, where handles of different streams are
different consumers and the numbers are not used up, show the handles of a stream the same as the
steps of that stream alone do, but for the numbers of the messages, whose order is the same. -/
theorem streams_do_not_interfere {start : Store} (empty : start.messages = [])
    {steps : List StreamStep}
    (apart : ∀ a ∈ steps, ∀ b ∈ steps, a.handle.owner ≠ b.handle.owner →
      a.handle.consumer ≠ b.handle.consumer)
    (fits : FitsInt64 start.nextMessage) (room : FitsInt64 (start.nextMessage + steps.length))
    (stream : Option Nat) :
    ∃ pairs : Renaming, pairs.Ordered ∧ List.Forall₂ (Sighting.Twin pairs)
      ((StreamRun.ofSteps start steps).seen.filter fun sighting => sighting.step.isOf stream)
      (StreamRun.ofSteps start (steps.filter fun step => step.isOf stream)).seen := by
  have separate : Apart (steps.map StreamStep.handle) := by
    intro a aIn b bIn same
    obtain ⟨first, firstIn, rfl⟩ := List.mem_map.1 aIn
    obtain ⟨second, secondIn, rfl⟩ := List.mem_map.1 bIn
    by_contra different
    exact apart first firstIn second secondIn different same
  obtain ⟨pairs, mirrors⟩ := StreamRun.mirrors_ofSteps empty separate fits room stream
    (fun step member => List.mem_map_of_mem member) (Nat.le_refl _)
  exact ⟨pairs, mirrors.store.ordered, mirrors.seen⟩

/-- A private handle publishes and claims between the steps of the shared ones, and a shared handle
tries to acknowledge what the private one holds. -/
def mixedStreams : List StreamStep :=
  let request (n : Nat) (h : n < Uuid.limit) : StreamCall :=
    .publish { id := { value := n, value_lt := h }, user := 5, since := .epoch }
  let shared : QueueHandle := { consumer := 1 }
  let own : QueueHandle := { consumer := 2, isPrivate := true }
  [{ time := 0, handle := own, call := request 21 (by decide) },
    { time := 1, handle := shared, call := request 22 (by decide) },
    { time := 2, handle := own, call := .claim },
    { time := 3, handle := shared, call := .claim },
    { time := 4, handle := shared, call := .acknowledge own 0 },
    { time := 5, handle := shared, call := .acknowledge shared 0 }]

theorem mixedStreams_do_not_interfere :
    (∀ a ∈ mixedStreams, ∀ b ∈ mixedStreams, a.handle.owner ≠ b.handle.owner →
      a.handle.consumer ≠ b.handle.consumer) ∧
    ((StreamRun.ofSteps {} mixedStreams).seen.filterMap fun sighting =>
      sighting.delivery?.map Delivery.receipt) = [1, 2] ∧
    ∃ pairs : Renaming, pairs.Ordered ∧ List.Forall₂ (Sighting.Twin pairs)
      ((StreamRun.ofSteps {} mixedStreams).seen.filter fun sighting => sighting.step.isOf none)
      (StreamRun.ofSteps {} (mixedStreams.filter fun step => step.isOf none)).seen :=
  ⟨by decide, by decide +kernel,
    streams_do_not_interfere rfl (by decide) (by decide) (by decide) none⟩

end ExpenseLedger
