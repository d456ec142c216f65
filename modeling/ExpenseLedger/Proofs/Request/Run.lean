import ExpenseLedger.Proofs.Request.Queue
import ExpenseLedger.Proofs.Rows

/-!
# Runs of the queue

Any number of handles act on one queue, each action at a time of the clock. A run keeps a log of
what can be observed from outside: which rows came into the table, what was handed out, and which
rows went. The log is read off the tables before and after an action, not off the action.

`QueueRun.step_effect` says all that one action can do to a queue whose rows are `Lined`.
-/

namespace ExpenseLedger

/-- What is asked of a handle. -/
inductive QueueCall where
  | publish (request : ReportRequest)
  | claim
  | acknowledge (receipt : Int)

/-- One action on the queue, at a time of the clock in milliseconds. -/
structure QueueAction where
  time : Int
  handle : QueueHandle
  call : QueueCall

/-- What can be seen of an action. -/
inductive QueueEvent where
  | published (row : QueuedMessage)
  | delivered (handle : QueueHandle) (time : Int) (delivery : Delivery)
  | removed (row : QueuedMessage)

/-- The queue, and what has been seen of it. -/
structure QueueRun where
  store : Store
  log : List QueueEvent := []

namespace QueueAction

/-- Acts on the tables. An action that fails changes nothing. -/
def perform (action : QueueAction) (store : Store) : Option Delivery × Store :=
  match action.call with
  | .publish request => (none, (action.handle.publish request action.time store).2)
  | .claim =>
    match action.handle.claim action.time store with
    | .ok result => result
    | .error _ => (none, store)
  | .acknowledge receipt =>
    match action.handle.acknowledge receipt store with
    | .ok after => (none, after)
    | .error _ => (none, store)

end QueueAction

namespace Store

/-- The rows of the second queue whose numbers the first does not have. -/
def arrivals (before after : Store) : List QueuedMessage :=
  after.messages.filter fun row => before.messages.all fun old => decide (old.seq ≠ row.seq)

end Store

namespace QueueRun

/-- The run after one more action. -/
def step (run : QueueRun) (action : QueueAction) : QueueRun :=
  let (delivery, after) := action.perform run.store
  { store := after
    log := run.log ++ ((run.store.arrivals after).map QueueEvent.published ++
      delivery.toList.map (QueueEvent.delivered action.handle action.time) ++
      (after.arrivals run.store).map QueueEvent.removed) }

/-- The run of a list of actions, from a table on. -/
def ofActions (start : Store) (actions : List QueueAction) : QueueRun :=
  actions.foldl step { store := start }

end QueueRun

namespace Store

/-- The rows are in the order of their numbers, none of which is given again, and only the oldest
row of a stream and key is ever claimed. -/
structure Lined (store : Store) : Prop where
  ascending : Rows.Ascending QueuedMessage.seq store.messages
  fresh : ∀ row ∈ store.messages, row.seq < store.nextMessage
  oldest : ∀ row ∈ store.messages, row.claim ≠ none → store.Oldest row

theorem mem_arrivals {before after : Store} {row : QueuedMessage} :
    row ∈ before.arrivals after ↔
      row ∈ after.messages ∧ ∀ old ∈ before.messages, old.seq ≠ row.seq := by
  simp [arrivals]

theorem arrivals_eq_nil {before after : Store}
    (h : ∀ row ∈ after.messages, ∃ old ∈ before.messages, old.seq = row.seq) :
    before.arrivals after = [] := by
  apply List.eq_nil_iff_forall_not_mem.2
  intro row inArrivals
  obtain ⟨inAfter, different⟩ := mem_arrivals.1 inArrivals
  obtain ⟨old, inBefore, same⟩ := h row inAfter
  exact different old inBefore same

@[simp] theorem arrivals_self (store : Store) : store.arrivals store = [] :=
  arrivals_eq_nil fun row h => ⟨row, h, rfl⟩

/-! ## Each change of the queue keeps it lined -/

section Changes

variable {store : Store} (lined : store.Lined) {row : QueuedMessage} {consumer : Nat}
  {now receipt : Int}

include lined in
theorem arrivals_withRow (seq : row.seq = store.nextMessage) :
    store.arrivals (store.withRow row) = [row] := by
  have old : (store.messages.filter fun other =>
      store.messages.all fun old => decide (old.seq ≠ other.seq)) = [] :=
    store.arrivals_self
  have new : store.messages.all (fun old => decide (old.seq ≠ row.seq)) = true := by
    simp only [List.all_eq_true, decide_eq_true_eq]
    intro other h
    have := lined.fresh other h
    omega
  unfold arrivals withRow
  simp only [List.filter_append, old, List.nil_append, List.filter_cons, new, if_true,
    List.filter_nil]

include lined in
theorem Lined.withRow (seq : row.seq = store.nextMessage) (unclaimed : row.claim = none) :
    (store.withRow row).Lined where
  ascending := by
    refine List.pairwise_append.2 ⟨lined.ascending, List.pairwise_singleton _ _, ?_⟩
    intro other h last inLast
    have := lined.fresh other h
    rw [List.mem_singleton.1 inLast]
    omega
  fresh := by
    intro other h
    have : other ∈ store.messages ∨ other = row := by simpa [Store.withRow] using h
    show other.seq < store.nextMessage + 1
    rcases this with old | rfl
    · have := lined.fresh other old
      omega
    · omega
  oldest := by
    intro other h claimed later inLater line
    have here : other ∈ store.messages ∨ other = row := by simpa [Store.withRow] using h
    have there : later ∈ store.messages ∨ later = row := by simpa [Store.withRow] using inLater
    rcases here with old | rfl
    · rcases there with old' | rfl
      · exact lined.oldest other old claimed later old' line
      · have := lined.fresh other old
        omega
    · exact absurd unclaimed claimed

theorem mem_withClaim {other : QueuedMessage} :
    other ∈ (store.withClaim row consumer now).messages ↔
      (other ∈ store.messages ∧ other.seq ≠ row.seq) ∨
        (other = row.claimedBy consumer now ∧ ∃ old ∈ store.messages, old.seq = row.seq) := by
  unfold Store.withClaim
  simp only [List.mem_map]
  constructor
  · rintro ⟨old, h, rfl⟩
    by_cases same : old.seq = row.seq
    · right
      simp only [same, if_true, true_and]
      exact ⟨old, h, same⟩
    · left
      simp only [same, if_false]
      exact ⟨h, same⟩
  · rintro (⟨h, different⟩ | ⟨rfl, old, h, same⟩)
    · exact ⟨other, h, by simp [different]⟩
    · exact ⟨old, h, by simp [same]⟩

/-- A claim changes no number. -/
theorem map_seq_withClaim :
    (store.withClaim row consumer now).messages.map QueuedMessage.seq =
      store.messages.map QueuedMessage.seq := by
  unfold Store.withClaim
  rw [List.map_map]
  apply List.map_congr_left
  intro other _
  by_cases same : other.seq = row.seq <;> simp [same, QueuedMessage.claimedBy]

include lined in
theorem Lined.withClaim (member : row ∈ store.messages) (head : store.Oldest row) :
    (store.withClaim row consumer now).Lined where
  ascending := by
    have h := List.pairwise_map.2 lined.ascending
    rw [← map_seq_withClaim] at h
    exact List.pairwise_map.1 h
  fresh := by
    intro other h
    rcases mem_withClaim.1 h with ⟨old, -⟩ | ⟨rfl, -⟩
    · exact lined.fresh other old
    · exact lined.fresh row member
  oldest := by
    intro other h claimed later inLater line
    rcases mem_withClaim.1 h with ⟨old, different⟩ | ⟨rfl, -⟩
    · rcases mem_withClaim.1 inLater with ⟨old', -⟩ | ⟨rfl, -⟩
      · exact lined.oldest other old claimed later old' line
      · exact lined.oldest other old claimed row member line
    · rcases mem_withClaim.1 inLater with ⟨old', -⟩ | ⟨rfl, -⟩
      · exact head later old' line
      · exact Int.le_refl _

include lined in
theorem Lined.withoutHeld : (store.withoutHeld receipt consumer).Lined where
  ascending := lined.ascending.filter _
  fresh := fun other h => lined.fresh other (List.mem_filter.1 h).1
  oldest := fun other h claimed later inLater line =>
    lined.oldest other (List.mem_filter.1 h).1 claimed later (List.mem_filter.1 inLater).1 line

include lined in
theorem arrivals_withoutHeld (member : row ∈ store.messages)
    (held : row.isHeldBy receipt consumer = true) :
    (store.withoutHeld receipt consumer).arrivals store = [row] := by
  apply lined.ascending.filter_eq_singleton member
  intro other h
  simp only [List.all_eq_true, decide_eq_true_eq]
  constructor
  · intro gone
    by_cases otherHeld : other.isHeldBy receipt consumer = true
    · apply lined.ascending.eq_of_key_eq h member
      rw [(QueuedMessage.isHeldBy_iff.1 otherHeld).1, (QueuedMessage.isHeldBy_iff.1 held).1]
    · have stays : other ∈ (store.withoutHeld receipt consumer).messages := by
        simpa [Store.withoutHeld, h] using otherHeld
      exact absurd rfl (gone other stays)
  · rintro rfl old stays same
    obtain ⟨inStore, notHeld⟩ := List.mem_filter.1 stays
    rw [lined.ascending.eq_of_key_eq inStore member same, held] at notHeld
    cases notHeld

/-- Acknowledging what nobody holds changes nothing. -/
theorem withoutHeld_eq_self
    (unheld : ∀ row ∈ store.messages, ¬row.isHeldBy receipt consumer = true) :
    store.withoutHeld receipt consumer = store := by
  unfold Store.withoutHeld
  rw [List.filter_eq_self.2 fun row h => by simpa using unheld row h]

theorem arrivals_withClaim_left (member : row ∈ store.messages) :
    store.arrivals (store.withClaim row consumer now) = [] := by
  apply arrivals_eq_nil
  intro other h
  rcases mem_withClaim.1 h with ⟨old, -⟩ | ⟨rfl, -⟩
  · exact ⟨other, old, rfl⟩
  · exact ⟨row, member, rfl⟩

theorem arrivals_withClaim_right :
    (store.withClaim row consumer now).arrivals store = [] := by
  apply arrivals_eq_nil
  intro other h
  by_cases same : other.seq = row.seq
  · exact ⟨row.claimedBy consumer now, mem_withClaim.2 (Or.inr ⟨rfl, other, h, same⟩), same.symm⟩
  · exact ⟨other, mem_withClaim.2 (Or.inl ⟨h, same⟩), rfl⟩

theorem arrivals_withRow_right : (store.withRow row).arrivals store = [] :=
  arrivals_eq_nil fun other h => ⟨other, List.mem_append_left _ h, rfl⟩

theorem arrivals_withoutHeld_left : store.arrivals (store.withoutHeld receipt consumer) = [] :=
  arrivals_eq_nil fun other h => ⟨other, (List.mem_filter.1 h).1, rfl⟩

end Changes

/-! ## The rows of a stream -/

/-- The rows of a stream. -/
def stream (store : Store) (owner : Option Nat) : List QueuedMessage :=
  store.messages.filter fun row => decide (row.owner = owner)

section Stream

variable {store : Store} {owner : Option Nat} {row : QueuedMessage} {consumer : Nat}
  {now receipt : Int}

theorem mem_stream : row ∈ store.stream owner ↔ row ∈ store.messages ∧ row.owner = owner := by
  simp [stream]

/-- A handle only looks at the rows of its stream. -/
theorem find_mayClaim (handle : QueueHandle) (now : Int) (store : Store) :
    store.messages.find? (handle.mayClaim store now) =
      (store.stream handle.owner).find? (handle.mayClaim store now) := by
  rw [stream, List.find?_filter]
  congr 1
  funext row
  rw [Bool.eq_iff_iff]
  simp only [decide_eq_true_eq]
  exact ⟨fun may => ⟨(QueueHandle.mayClaim_iff.1 may).1, may⟩, And.right⟩

theorem stream_withRow_self (own : row.owner = owner) :
    (store.withRow row).stream owner = store.stream owner ++ [row] := by
  simp [stream, Store.withRow, own]

theorem stream_withRow_of_ne (foreign : row.owner ≠ owner) :
    (store.withRow row).stream owner = store.stream owner := by
  simp [stream, Store.withRow, foreign]

theorem stream_withClaim (ascending : Rows.Ascending QueuedMessage.seq store.messages)
    (member : row ∈ store.messages) :
    (store.withClaim row consumer now).stream owner = (store.stream owner).map fun other =>
      if other.seq = row.seq then row.claimedBy consumer now else other := by
  unfold stream Store.withClaim
  rw [List.filter_map]
  congr 1
  apply List.filter_congr
  intro other inTable
  by_cases same : other.seq = row.seq
  · rw [ascending.eq_of_key_eq inTable member same]
    simp [QueuedMessage.claimedBy]
  · simp [same]

theorem stream_withClaim_of_ne (ascending : Rows.Ascending QueuedMessage.seq store.messages)
    (member : row ∈ store.messages) (foreign : row.owner ≠ owner) :
    (store.withClaim row consumer now).stream owner = store.stream owner := by
  rw [stream_withClaim ascending member]
  refine (List.map_congr_left fun other inStream => ?_).trans (List.map_id _)
  obtain ⟨inTable, own⟩ := mem_stream.1 inStream
  refine if_neg fun same => foreign ?_
  rw [← ascending.eq_of_key_eq inTable member same]
  exact own

theorem stream_withoutHeld : (store.withoutHeld receipt consumer).stream owner =
    (store.stream owner).filter fun row => !row.isHeldBy receipt consumer := by
  simp only [stream, Store.withoutHeld, List.filter_filter, Bool.and_comm]

end Stream

end Store

/-! ## Steps of a run -/

namespace QueueRun

/-- What an action can do to a run: nothing, or one change of the queue that is seen as one
event. -/
inductive Effect (run : QueueRun) (action : QueueAction) : QueueRun → Prop
  | nothing : Effect run action run
  | published (request : ReportRequest) (row : QueuedMessage)
      (asked : action.call = .publish request)
      (made : row = run.store.nextRow (.encode request) action.handle.owner action.time) :
      Effect run action
        { store := run.store.withRow row, log := run.log ++ [.published row] }
  | delivered (row : QueuedMessage) (asked : action.call = .claim)
      (member : row ∈ run.store.messages)
      (may : action.handle.mayClaim run.store action.time row = true) :
      Effect run action
        { store := run.store.withClaim row action.handle.consumer action.time
          log := run.log ++ [.delivered action.handle action.time
            (row.claimedBy action.handle.consumer action.time).toDelivery] }
  | removed (receipt : Int) (row : QueuedMessage) (asked : action.call = .acknowledge receipt)
      (member : row ∈ run.store.messages)
      (held : row.isHeldBy receipt action.handle.consumer = true) :
      Effect run action
        { store := run.store.withoutHeld receipt action.handle.consumer
          log := run.log ++ [.removed row] }

theorem step_of_perform {run : QueueRun} {action : QueueAction} {delivery : Option Delivery}
    {after : Store} (h : action.perform run.store = (delivery, after)) :
    run.step action =
      { store := after
        log := run.log ++ ((run.store.arrivals after).map QueueEvent.published ++
          delivery.toList.map (QueueEvent.delivered action.handle action.time) ++
          (after.arrivals run.store).map QueueEvent.removed) } := by
  unfold step
  rw [h]

/-- An action that leaves the tables alone and hands nothing out is not seen. -/
theorem step_of_idle {run : QueueRun} {action : QueueAction}
    (h : action.perform run.store = (none, run.store)) : run.step action = run := by
  rw [step_of_perform h]
  simp

section Publishing

variable {run : QueueRun} {action : QueueAction} {request : ReportRequest}

/-- A request that is published comes into the table as the row that its number, its text and its
handle make, and nothing else comes or goes. -/
theorem step_of_publish_ok (lined : run.store.Lined) (asked : action.call = .publish request)
    (done : (action.handle.publish request action.time run.store).1 = .ok ()) :
    run.step action =
      { store := run.store.withRow
          (run.store.nextRow (.encode request) action.handle.owner action.time)
        log := run.log ++ [.published
          (run.store.nextRow (.encode request) action.handle.owner action.time)] } := by
  rcases action.handle.publish_eq request action.time run.store with ⟨-, sent⟩ | ⟨-, e, failed⟩
  · have performed : action.perform run.store = (none, run.store.withRow
        (run.store.nextRow (.encode request) action.handle.owner action.time)) := by
      simp only [QueueAction.perform, asked, sent]
    rw [step_of_perform performed, Store.arrivals_withRow lined rfl, Store.arrivals_withRow_right]
    rfl
  · rw [failed] at done
    cases done

/-- A request that cannot be published leaves no row. -/
theorem step_of_publish_error {e : Error} (asked : action.call = .publish request)
    (failed : (action.handle.publish request action.time run.store).1 = .error e) :
    run.step action = run := by
  rcases action.handle.publish_eq request action.time run.store with ⟨-, sent⟩ | ⟨-, e, refused⟩
  · rw [sent] at failed
    cases failed
  · apply step_of_idle
    simp only [QueueAction.perform, asked, refused]

end Publishing

theorem step_effect {run : QueueRun} (lined : run.store.Lined) (action : QueueAction) :
    Effect run action (run.step action) := by
  cases asked : action.call with
  | publish request =>
    cases answer : (action.handle.publish request action.time run.store).1 with
    | ok _ =>
      rw [step_of_publish_ok lined asked answer]
      exact .published request _ asked rfl
    | error e =>
      rw [step_of_publish_error asked answer]
      exact .nothing
  | claim =>
    by_cases reached : run.store.reaches [.requests] = true
    · rcases action.handle.claim_eq action.time reached with
        ⟨none, -⟩ | ⟨before, row, after, split, may, -, claimed⟩
      · have idle : action.perform run.store = (.none, run.store) := by
          simp only [QueueAction.perform, asked, none]
        rw [step_of_idle idle]
        exact .nothing
      · have member : row ∈ run.store.messages := by simp [split]
        have performed : action.perform run.store =
            (some (row.claimedBy action.handle.consumer action.time).toDelivery,
              run.store.withClaim row action.handle.consumer action.time) := by
          simp only [QueueAction.perform, asked, claimed]
        rw [step_of_perform performed, Store.arrivals_withClaim_left member,
          Store.arrivals_withClaim_right]
        exact .delivered row asked member may
    · obtain ⟨e, failed⟩ :=
        action.handle.claim_unreached action.time reached
      have idle : action.perform run.store = (none, run.store) := by
        simp only [QueueAction.perform, asked, failed]
      rw [step_of_idle idle]
      exact .nothing
  | acknowledge receipt =>
    rcases action.handle.acknowledge_eq receipt run.store with done | ⟨e, failed⟩
    · have performed : action.perform run.store =
          (none, run.store.withoutHeld receipt action.handle.consumer) := by
        simp only [QueueAction.perform, asked, done]
      by_cases held : ∃ row ∈ run.store.messages,
          row.isHeldBy receipt action.handle.consumer = true
      · obtain ⟨row, member, held⟩ := held
        rw [step_of_perform performed, Store.arrivals_withoutHeld_left,
          Store.arrivals_withoutHeld lined member held]
        exact .removed receipt row asked member held
      · have unheld := fun row h => not_exists.1 held row |> fun no held => no ⟨h, held⟩
        rw [Store.withoutHeld_eq_self unheld] at performed
        rw [step_of_idle performed]
        exact .nothing
    · have idle : action.perform run.store = (none, run.store) := by
        simp only [QueueAction.perform, asked, failed]
      rw [step_of_idle idle]
      exact .nothing

/-- Whatever happens, the queue stays lined. -/
theorem lined_step {run : QueueRun} (lined : run.store.Lined) (action : QueueAction) :
    (run.step action).store.Lined := by
  have effect := step_effect lined action
  generalize run.step action = next at effect
  cases effect with
  | nothing => exact lined
  | published request row asked made => exact lined.withRow (made ▸ rfl) (made ▸ rfl)
  | delivered row asked member may =>
    exact lined.withClaim member (QueueHandle.mayClaim_iff.1 may).2.1
  | removed receipt row asked member held => exact lined.withoutHeld

/-- An empty queue is lined. -/
theorem lined_of_empty {store : Store} (empty : store.messages = []) : store.Lined where
  ascending := by simp [Rows.Ascending, empty]
  fresh := by simp [empty]
  oldest := by simp [empty]

end QueueRun
end ExpenseLedger
