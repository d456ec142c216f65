import ExpenseLedger.Calendar.Instant
import ExpenseLedger.Proofs.Request.Run

/-!
# The queue keeps the publish order

Messages of one stream and key are handed out and taken away in the order in which they were
published: none is handed out before its predecessor has been taken away. A claim gives out the
first message that may be claimed, and nothing only if there is none.

The proof ties the log of a run to the rows that are left. Every published message is still there
or was seen to go (`Accounted.present`), so that a message which is the oldest of its line has only
predecessors that are gone. What is seen to be published are the requests that were published, and
no others (`published_ofActions`).
-/

namespace ExpenseLedger

namespace QueueHandle

/-- The handle may claim the row by now: the row is of its stream, the oldest of its key there, and
unclaimed or claimed for as long as a lease lasts. -/
def Claimable (handle : QueueHandle) (store : Store) (now : Int) (row : QueuedMessage) : Prop :=
  row.owner = handle.owner ∧ store.Oldest row ∧
    ∀ claim, row.claim = some claim → claim.since ≤ now - handle.visibility

/-- The row is the first one that the handle may claim. -/
def FirstClaimable (handle : QueueHandle) (store : Store) (now : Int) (row : QueuedMessage) :
    Prop :=
  row ∈ store.messages ∧ handle.Claimable store now row ∧
    ∀ other ∈ store.messages, handle.Claimable store now other → row.seq ≤ other.seq

end QueueHandle

namespace QueueEvent

/-- The event hands out or takes away the message of a number. -/
def TakesUp (event : QueueEvent) (seq : Int) : Prop :=
  match event with
  | .published _ => False
  | .delivered _ _ delivery => delivery.receipt = seq
  | .removed row => row.seq = seq

end QueueEvent

/-- The published rows of a log, in order. -/
def published (log : List QueueEvent) : List QueuedMessage :=
  log.filterMap fun event =>
    match event with
    | .published row => some row
    | _ => none

/-- The row that an action adds to the queue: that of a request which is published. -/
def QueueAction.newRow? (action : QueueAction) (store : Store) : Option QueuedMessage :=
  match action.call with
  | .publish request =>
    match (action.handle.publish request action.time store).1 with
    | .ok _ => some (store.nextRow (.encode request) action.handle.owner action.time)
    | .error _ => none
  | .claim | .acknowledge _ => none

/-- The rows that actions add to the queue of a run, one after the other. -/
def QueueRun.newRows (run : QueueRun) : List QueueAction → List QueuedMessage
  | [] => []
  | action :: actions => (action.newRow? run.store).toList ++ (run.step action).newRows actions

/-- The message of a number has been handed out. -/
def Delivered (log : List QueueEvent) (seq : Int) : Prop :=
  ∃ handle time delivery, QueueEvent.delivered handle time delivery ∈ log ∧
    delivery.receipt = seq

/-- The message of a number has been taken away. -/
def Removed (log : List QueueEvent) (seq : Int) : Prop :=
  ∃ row, QueueEvent.removed row ∈ log ∧ row.seq = seq

/-- What has happened allows an event: if it takes up a message, then all messages of the same
stream and key that were published before have been handed out and taken away. -/
def Allows (past : List QueueEvent) (event : QueueEvent) : Prop :=
  ∀ first second : QueuedMessage,
    [QueueEvent.published first, QueueEvent.published second].Sublist past →
    first.SameLine second → event.TakesUp second.seq →
    Delivered past first.seq ∧ Removed past first.seq

/-- Every event of a log was allowed by what had happened before it. -/
def InPublishOrder (log : List QueueEvent) : Prop :=
  ∀ past event future, log = past ++ event :: future → Allows past event

/-! ## Logs that grow -/

section Logs

variable {log : List QueueEvent} {event : QueueEvent} {seq : Int}

theorem Delivered.append (h : Delivered log seq) (event : QueueEvent) :
    Delivered (log ++ [event]) seq := by
  obtain ⟨handle, time, delivery, member, same⟩ := h
  exact ⟨handle, time, delivery, List.mem_append_left _ member, same⟩

theorem Removed.append (h : Removed log seq) (event : QueueEvent) :
    Removed (log ++ [event]) seq := by
  obtain ⟨row, member, same⟩ := h
  exact ⟨row, List.mem_append_left _ member, same⟩

theorem Removed.of_append (h : Removed (log ++ [event]) seq) :
    Removed log seq ∨ event.TakesUp seq := by
  obtain ⟨row, member, same⟩ := h
  rcases List.mem_append.1 member with old | new
  · exact Or.inl ⟨row, old, same⟩
  · right
    rw [← List.mem_singleton.1 new]
    exact same

theorem published_append_published (row : QueuedMessage) :
    published (log ++ [.published row]) = published log ++ [row] := by
  simp [published]

theorem published_append_delivered (handle : QueueHandle) (time : Int) (delivery : Delivery) :
    published (log ++ [.delivered handle time delivery]) = published log := by
  simp [published]

theorem published_append_removed (row : QueuedMessage) :
    published (log ++ [.removed row]) = published log := by
  simp [published]

/-- In a log with ascending numbers the earlier of two messages has the lesser one. -/
theorem seq_lt_of_sublist {first second : QueuedMessage}
    (numbered : Rows.Ascending QueuedMessage.seq (published log))
    (order : [QueueEvent.published first, QueueEvent.published second].Sublist log) :
    first.seq < second.seq ∧ first ∈ published log ∧ second ∈ published log := by
  have mapped : (published [.published first, .published second]).Sublist (published log) :=
    order.filterMap _
  have rows : [first, second].Sublist (published log) := mapped
  have pair := numbered.sublist rows
  refine ⟨?_, rows.subset List.mem_cons_self, rows.subset (by simp)⟩
  exact (List.pairwise_cons.1 pair).1 second List.mem_cons_self

theorem InPublishOrder.append (h : InPublishOrder log) (allowed : Allows log event) :
    InPublishOrder (log ++ [event]) := by
  intro past latest future split
  rcases List.eq_nil_or_concat future with rfl | ⟨before, last, rfl⟩
  · obtain ⟨rfl, same⟩ := List.append_inj' split rfl
    cases same
    exact allowed
  · have regrouped : log ++ [event] = (past ++ latest :: before) ++ [last] := by simp [split]
    obtain ⟨rfl, -⟩ := List.append_inj' regrouped rfl
    exact h past latest before rfl

end Logs

/-! ## The log and the rows -/

namespace QueueRun

/-- What is seen to be published is the row of the request, if it was published, and nothing else. -/
theorem published_step {run : QueueRun} (lined : run.store.Lined) (action : QueueAction) :
    published (run.step action).log = published run.log ++ (action.newRow? run.store).toList := by
  cases asked : action.call with
  | publish request =>
    simp only [QueueAction.newRow?, asked]
    cases answer : (action.handle.publish request action.time run.store).1 with
    | ok _ =>
      rw [step_of_publish_ok lined asked answer]
      exact published_append_published _
    | error e =>
      rw [step_of_publish_error asked answer]
      exact (List.append_nil _).symm
  | claim | acknowledge receipt =>
    have effect := step_effect lined action
    generalize run.step action = next at effect
    have none : action.newRow? run.store = none := by simp only [QueueAction.newRow?, asked]
    rw [none, Option.toList_none, List.append_nil]
    cases effect with
    | nothing => rfl
    | published request row other made => cases asked.symm.trans other
    | delivered row other member may => exact published_append_delivered ..
    | removed receipt row other member held => exact published_append_removed _

/-- The publications in the log of a run are the requests that were published, in their order. -/
theorem published_ofActions {start : Store} (empty : start.messages = [])
    (actions : List QueueAction) :
    published (ofActions start actions).log = newRows { store := start } actions := by
  suffices from_run : ∀ run : QueueRun, run.store.Lined →
      published (actions.foldl step run).log = published run.log ++ run.newRows actions from
    from_run { store := start } (lined_of_empty empty)
  induction actions with
  | nil => exact fun run _ => (List.append_nil _).symm
  | cons action actions ih =>
    intro run lined
    rw [List.foldl_cons, ih _ (lined_step lined action), published_step lined, newRows,
      List.append_assoc]

/-- The log of a run accounts for its rows. -/
structure Accounted (run : QueueRun) : Prop where
  lined : run.store.Lined
  numbered : Rows.Ascending QueuedMessage.seq (published run.log)
  below : ∀ row ∈ published run.log, row.seq < run.store.nextMessage
  present : ∀ row ∈ published run.log, Removed run.log row.seq ∨
    ∃ current ∈ run.store.messages, current.seq = row.seq ∧ current.SameLine row
  recorded : ∀ current ∈ run.store.messages,
    ∃ row ∈ published run.log, row.seq = current.seq ∧ current.SameLine row
  claimed : ∀ current ∈ run.store.messages, current.claim ≠ none → Delivered run.log current.seq
  removed : ∀ seq, Removed run.log seq → Delivered run.log seq
  ordered : InPublishOrder run.log

variable {run : QueueRun}

/-- A message that is the oldest of its line may be taken up. -/
theorem Accounted.allows (h : run.Accounted) {current : QueuedMessage} {event : QueueEvent}
    (member : current ∈ run.store.messages) (oldest : run.store.Oldest current)
    (only : ∀ seq, event.TakesUp seq → seq = current.seq) : Allows run.log event := by
  intro first second order line taken
  obtain ⟨less, firstIn, secondIn⟩ := seq_lt_of_sublist h.numbered order
  rcases h.present first firstIn with gone | ⟨other, otherIn, sameSeq, otherLine⟩
  · exact ⟨h.removed _ gone, gone⟩
  · exfalso
    obtain ⟨record, recordIn, recordSeq, recordLine⟩ := h.recorded current member
    have same : record = second :=
      h.numbered.eq_of_key_eq recordIn secondIn (by rw [recordSeq, only _ taken])
    subst same
    have := oldest other otherIn ((otherLine.trans line).trans recordLine.symm)
    omega

theorem Accounted.publish (h : run.Accounted) {row : QueuedMessage}
    (seq : row.seq = run.store.nextMessage) (unclaimed : row.claim = none) :
    Accounted { store := run.store.withRow row, log := run.log ++ [.published row] } where
  lined := h.lined.withRow seq unclaimed
  numbered := by
    rw [published_append_published]
    refine List.pairwise_append.2 ⟨h.numbered, List.pairwise_singleton _ _, ?_⟩
    intro old oldIn last lastIn
    have := h.below old oldIn
    rw [List.mem_singleton.1 lastIn]
    omega
  below := by
    intro other otherIn
    rw [published_append_published] at otherIn
    show other.seq < run.store.nextMessage + 1
    rcases List.mem_append.1 otherIn with old | new
    · have := h.below other old
      omega
    · rw [List.mem_singleton.1 new]
      omega
  present := by
    intro other otherIn
    rw [published_append_published] at otherIn
    rcases List.mem_append.1 otherIn with old | new
    · rcases h.present other old with gone | ⟨current, currentIn, same⟩
      · exact Or.inl (gone.append _)
      · exact Or.inr ⟨current, List.mem_append_left _ currentIn, same⟩
    · rw [List.mem_singleton.1 new]
      exact Or.inr ⟨row, List.mem_append_right _ List.mem_cons_self, rfl, rfl, rfl⟩
  recorded := by
    intro current currentIn
    rw [published_append_published]
    rcases List.mem_append.1 currentIn with old | new
    · obtain ⟨record, recordIn, same⟩ := h.recorded current old
      exact ⟨record, List.mem_append_left _ recordIn, same⟩
    · rw [List.mem_singleton.1 new]
      exact ⟨row, List.mem_append_right _ List.mem_cons_self, rfl, rfl, rfl⟩
  claimed := by
    intro current currentIn isClaimed
    rcases List.mem_append.1 currentIn with old | new
    · exact (h.claimed current old isClaimed).append _
    · rw [List.mem_singleton.1 new] at isClaimed
      exact absurd unclaimed isClaimed
  removed := by
    intro seq gone
    rcases gone.of_append with old | new
    · exact (h.removed seq old).append _
    · exact new.elim
  ordered := h.ordered.append fun _ _ _ _ taken => taken.elim

theorem Accounted.deliver (h : run.Accounted) {row : QueuedMessage} {handle : QueueHandle}
    {time : Int} (member : row ∈ run.store.messages) (oldest : run.store.Oldest row) :
    Accounted
      { store := run.store.withClaim row handle.consumer time
        log := run.log ++
          [.delivered handle time (row.claimedBy handle.consumer time).toDelivery] } where
  lined := h.lined.withClaim member oldest
  numbered := by
    rw [published_append_delivered]
    exact h.numbered
  below := by
    rw [published_append_delivered]
    exact h.below
  present := by
    intro other otherIn
    rw [published_append_delivered] at otherIn
    rcases h.present other otherIn with gone | ⟨current, currentIn, same, line⟩
    · exact Or.inl (gone.append _)
    · right
      by_cases target : current.seq = row.seq
      · have : current = row := h.lined.ascending.eq_of_key_eq currentIn member target
        subst this
        exact ⟨current.claimedBy handle.consumer time,
          Store.mem_withClaim.2 (Or.inr ⟨rfl, current, currentIn, rfl⟩), same, line⟩
      · exact ⟨current, Store.mem_withClaim.2 (Or.inl ⟨currentIn, target⟩), same, line⟩
  recorded := by
    intro current currentIn
    rw [published_append_delivered]
    rcases Store.mem_withClaim.1 currentIn with ⟨old, -⟩ | ⟨rfl, -⟩
    · exact h.recorded current old
    · exact h.recorded row member
  claimed := by
    intro current currentIn isClaimed
    rcases Store.mem_withClaim.1 currentIn with ⟨old, -⟩ | ⟨rfl, -⟩
    · exact (h.claimed current old isClaimed).append _
    · exact ⟨handle, time, _, List.mem_append_right _ List.mem_cons_self, rfl⟩
  removed := by
    intro seq gone
    obtain ⟨other, otherIn, same⟩ := gone
    rcases List.mem_append.1 otherIn with old | new
    · exact (h.removed seq ⟨other, old, same⟩).append _
    · cases List.mem_singleton.1 new
  ordered := h.ordered.append (h.allows member oldest fun _ taken => taken.symm)

theorem Accounted.remove (h : run.Accounted) {row : QueuedMessage} {receipt : Int}
    {consumer : Nat} (member : row ∈ run.store.messages)
    (held : row.isHeldBy receipt consumer = true) :
    Accounted
      { store := run.store.withoutHeld receipt consumer, log := run.log ++ [.removed row] } where
  lined := h.lined.withoutHeld
  numbered := by
    rw [published_append_removed]
    exact h.numbered
  below := by
    rw [published_append_removed]
    exact h.below
  present := by
    intro other otherIn
    rw [published_append_removed] at otherIn
    rcases h.present other otherIn with gone | ⟨current, currentIn, same, line⟩
    · exact Or.inl (gone.append _)
    · by_cases otherHeld : current.isHeldBy receipt consumer = true
      · left
        refine ⟨row, List.mem_append_right _ List.mem_cons_self, ?_⟩
        rw [← same, (QueuedMessage.isHeldBy_iff.1 held).1,
          (QueuedMessage.isHeldBy_iff.1 otherHeld).1]
      · right
        refine ⟨current, List.mem_filter.2 ⟨currentIn, ?_⟩, same, line⟩
        simpa using otherHeld
  recorded := by
    intro current currentIn
    rw [published_append_removed]
    exact h.recorded current (List.mem_filter.1 currentIn).1
  claimed := by
    intro current currentIn isClaimed
    exact (h.claimed current (List.mem_filter.1 currentIn).1 isClaimed).append _
  removed := by
    intro seq gone
    rcases gone.of_append with old | new
    · exact (h.removed seq old).append _
    · obtain ⟨-, claim, isClaimed, -⟩ := QueuedMessage.isHeldBy_iff.1 held
      have delivered := h.claimed row member (by simp [isClaimed])
      rw [show row.seq = seq from new] at delivered
      exact delivered.append _
  ordered := by
    obtain ⟨-, claim, isClaimed, -⟩ := QueuedMessage.isHeldBy_iff.1 held
    have oldest := h.lined.oldest row member (by simp [isClaimed])
    exact h.ordered.append (h.allows member oldest fun _ taken => taken.symm)

theorem Accounted.step (h : run.Accounted) (action : QueueAction) :
    (run.step action).Accounted := by
  have effect := step_effect h.lined action
  generalize run.step action = next at effect
  cases effect with
  | nothing => exact h
  | published request row asked made => exact h.publish (made ▸ rfl) (made ▸ rfl)
  | delivered row asked member may => exact h.deliver member (QueueHandle.mayClaim_iff.1 may).2.1
  | removed receipt row asked member held => exact h.remove member held

theorem accounted_start {start : Store} (empty : start.messages = []) :
    Accounted { store := start } where
  lined := lined_of_empty empty
  numbered := List.Pairwise.nil
  below := by simp [published]
  present := by simp [published]
  recorded := by simp [empty]
  claimed := by simp [empty]
  removed := by simp [Removed]
  ordered := by
    intro past event future split
    simp at split

theorem accounted_ofActions {start : Store} (empty : start.messages = [])
    (actions : List QueueAction) : (ofActions start actions).Accounted :=
  List.foldlRecOn actions step (accounted_start empty) fun _ h action _ => h.step action

/-! ## What a claim answers -/

/-- The leases began at times of the calendar. -/
def Stamped (run : QueueRun) : Prop :=
  ∀ row ∈ run.store.messages, ∀ claim, row.claim = some claim →
    (Instant.ofMillis claim.since).Representable

theorem Stamped.step (stamped : run.Stamped) (lined : run.store.Lined) {action : QueueAction}
    (clock : (Instant.ofMillis action.time).Representable) : (run.step action).Stamped := by
  have effect := step_effect lined action
  generalize run.step action = next at effect
  cases effect with
  | nothing => exact stamped
  | published request row asked made =>
    intro other member claim isClaimed
    rcases List.mem_append.1 member with old | new
    · exact stamped other old claim isClaimed
    · rw [List.mem_singleton.1 new, made] at isClaimed
      cases isClaimed
  | delivered row asked member may =>
    intro other inAfter claim isClaimed
    rcases Store.mem_withClaim.1 inAfter with ⟨old, -⟩ | ⟨rfl, -⟩
    · exact stamped other old claim isClaimed
    · cases isClaimed
      exact clock
  | removed receipt row asked member held =>
    intro other inAfter claim isClaimed
    exact stamped other (List.mem_filter.1 inAfter).1 claim isClaimed

theorem stamped_ofActions {start : Store} (empty : start.messages = [])
    {actions : List QueueAction}
    (clock : ∀ action ∈ actions, (Instant.ofMillis action.time).Representable) :
    (ofActions start actions).Stamped := by
  have begin : Stamped { store := start } := by
    intro row member
    rw [empty] at member
    cases member
  have both := List.foldlRecOn (motive := fun run => run.store.Lined ∧ run.Stamped) actions step
    ⟨lined_of_empty empty, begin⟩ fun run h action member =>
      ⟨lined_step h.1 action, h.2.step h.1 (clock action member)⟩
  exact both.2

/-- Within the calendar the bounds of 64 bits do not blur the end of a lease. -/
theorem le_expiry_iff {handle : QueueHandle} {since now : Int}
    (began : (Instant.ofMillis since).Representable)
    (clock : (Instant.ofMillis now).Representable) :
    since ≤ handle.expiry now ↔ since ≤ now - handle.visibility := by
  simp only [Instant.Representable, Instant.ofMillis, Instant.minSeconds, Instant.maxSeconds]
    at began clock
  simp only [QueueHandle.expiry, maxInt64, minInt64]
  omega

theorem mayClaim_iff_claimable (stamped : run.Stamped) {handle : QueueHandle} {now : Int}
    (clock : (Instant.ofMillis now).Representable) {row : QueuedMessage}
    (member : row ∈ run.store.messages) :
    handle.mayClaim run.store now row = true ↔ handle.Claimable run.store now row := by
  rw [QueueHandle.mayClaim_iff]
  unfold QueueHandle.Claimable
  apply and_congr_right
  intro _
  apply and_congr_right
  intro _
  apply forall₂_congr
  intro claim isClaimed
  exact le_expiry_iff (stamped row member claim isClaimed) clock

/-- A claim answers with the first row that may be claimed, and with nothing if there is none. -/
theorem claim_answer (lined : run.store.Lined) (stamped : run.Stamped) {handle : QueueHandle}
    {now : Int} (clock : (Instant.ofMillis now).Representable)
    (reached : run.store.reaches [.requests] = true) :
    ∃ answer after, handle.claim now run.store = .ok (answer, after) ∧
      (∀ delivery, answer = some delivery ↔ ∃ row, handle.FirstClaimable run.store now row ∧
        delivery =
          { receipt := row.seq, message := row.message, attempt := row.attempts + 1 }) ∧
      (answer = none ↔ ∀ row ∈ run.store.messages, ¬handle.Claimable run.store now row) := by
  rcases handle.claim_eq now reached with
    ⟨claimed, nobody⟩ | ⟨before, first, after, split, may, earlier, claimed⟩
  · have unclaimable : ∀ row ∈ run.store.messages, ¬handle.Claimable run.store now row :=
      fun row member claimable =>
        nobody row member ((mayClaim_iff_claimable stamped clock member).2 claimable)
    refine ⟨none, run.store, claimed, ?_, ?_⟩
    · intro delivery
      constructor
      · nofun
      · rintro ⟨row, ⟨member, claimable, -⟩, -⟩
        exact absurd claimable (unclaimable row member)
    · exact ⟨fun _ => unclaimable, fun _ => rfl⟩
  · have member : first ∈ run.store.messages := by simp [split]
    have claimable := (mayClaim_iff_claimable stamped clock member).1 may
    have least : ∀ other ∈ run.store.messages, handle.Claimable run.store now other →
        first.seq ≤ other.seq := by
      intro other otherIn otherClaimable
      have otherMay := (mayClaim_iff_claimable stamped clock otherIn).2 otherClaimable
      have order := lined.ascending
      rw [split] at order otherIn
      rcases List.mem_append.1 otherIn with inBefore | inRest
      · exact absurd otherMay (earlier other inBefore)
      · rcases List.mem_cons.1 inRest with rfl | inAfter
        · exact Int.le_refl _
        · exact Int.le_of_lt
            ((List.pairwise_cons.1 (List.pairwise_append.1 order).2.1).1 other inAfter)
    refine ⟨_, _, claimed, ?_, ?_⟩
    · intro delivery
      constructor
      · intro same
        cases same
        exact ⟨first, ⟨member, claimable, least⟩, rfl⟩
      · rintro ⟨row, ⟨rowIn, rowClaimable, rowLeast⟩, rfl⟩
        have same : row.seq = first.seq :=
          Int.le_antisymm (rowLeast first member claimable) (least row rowIn rowClaimable)
        rw [lined.ascending.eq_of_key_eq rowIn member same]
        rfl
    · constructor
      · nofun
      · intro nobody
        exact absurd claimable (nobody first member)

end QueueRun

/-- **Order of the queue.** After any actions of any handles on an empty queue, by a clock that
shows instants of the calendar: every claimed row is the oldest of its stream and key; a claim
answers with the first row that may be claimed, and with nothing exactly if there is none; numbers
ascend in publish order; and whatever was handed out or taken away came after all of its
predecessors had been handed out and taken away. -/
theorem queue_in_publish_order {start : Store} (empty : start.messages = [])
    {actions : List QueueAction}
    (clock : ∀ action ∈ actions, (Instant.ofMillis action.time).Representable) :
    let run := QueueRun.ofActions start actions
    (∀ row ∈ run.store.messages, row.claim ≠ none → run.store.Oldest row) ∧
    (∀ handle : QueueHandle, ∀ now, (Instant.ofMillis now).Representable →
      run.store.reaches [.requests] = true →
      ∃ answer after, handle.claim now run.store = .ok (answer, after) ∧
        (∀ delivery, answer = some delivery ↔ ∃ row, handle.FirstClaimable run.store now row ∧
          delivery =
            { receipt := row.seq, message := row.message, attempt := row.attempts + 1 }) ∧
        (answer = none ↔
          ∀ row ∈ run.store.messages, ¬handle.Claimable run.store now row)) ∧
    Rows.Ascending QueuedMessage.seq (published run.log) ∧
    InPublishOrder run.log := by
  intro run
  have accounted : run.Accounted := QueueRun.accounted_ofActions empty actions
  have stamped : run.Stamped := QueueRun.stamped_ofActions empty clock
  refine ⟨accounted.lined.oldest, ?_, accounted.numbered, accounted.ordered⟩
  intro handle now shown reached
  exact QueueRun.claim_answer accounted.lined stamped shown reached

/-- Two requests of one user are published; the second is claimed once the first is gone. -/
def twoRequests : List QueueAction :=
  let request (n : Nat) (h : n < Uuid.limit) : QueueCall :=
    .publish { id := { value := n, value_lt := h }, user := 7, since := Instant.epoch }
  [{ time := 1, handle := { consumer := 1 }, call := request 1 (by decide) },
    { time := 1, handle := { consumer := 1 }, call := request 2 (by decide) },
    { time := 2, handle := { consumer := 2 }, call := .claim },
    { time := 3, handle := { consumer := 3 }, call := .claim },
    { time := 4, handle := { consumer := 2 }, call := .acknowledge 1 },
    { time := 5, handle := { consumer := 3 }, call := .claim }]

theorem twoRequests_in_publish_order :
    (∀ action ∈ twoRequests, (Instant.ofMillis action.time).Representable) ∧
      (QueueRun.ofActions {} twoRequests).log.length = 5 ∧
      InPublishOrder (QueueRun.ofActions {} twoRequests).log :=
  ⟨by decide, by decide +kernel, (queue_in_publish_order rfl (by decide)).2.2.2⟩

end ExpenseLedger
