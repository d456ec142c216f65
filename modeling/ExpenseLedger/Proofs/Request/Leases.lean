import ExpenseLedger.Proofs.Request.Order
import Mathlib.Data.List.Basic

/-!
# Leases lose and duplicate nothing

What has become of a message can be told from the log of a run: who was handed it, when, and
whether it was taken away. `QueueRun.Leased` says that the rows tell the same. A row is claimed by
whoever was handed it last, since then, and its attempts are counted; so the lease that holds back
the next delivery is the one that began with the last, and an acknowledgement only counts from the
consumer that was handed the message last.
-/

namespace ExpenseLedger

/-- One hand-out of a message: to a handle, at a time. -/
structure Handout where
  handle : QueueHandle
  time : Int

/-- The lease that a hand-out begins. -/
def Handout.claim (handout : Handout) : Claim where
  consumer := handout.handle.consumer
  since := handout.time

namespace QueueEvent

/-- The hand-out of the message of a number, if the event is one. -/
def handout? (event : QueueEvent) (seq : Int) : Option Handout :=
  match event with
  | .delivered handle time delivery =>
    if delivery.receipt = seq then some { handle, time } else none
  | _ => none

end QueueEvent

/-- The hand-outs of the message of a number, in order. -/
def handouts (log : List QueueEvent) (seq : Int) : List Handout :=
  log.filterMap fun event => event.handout? seq

/-- The rows that were taken away in a log, in order. -/
def removals (log : List QueueEvent) : List QueuedMessage :=
  log.filterMap fun event =>
    match event with
    | .removed row => some row
    | _ => none

/-- The hand-outs are a lease or more apart. -/
def Spaced (lease : Nat) (handouts : List Handout) : Prop :=
  handouts.Pairwise fun (earlier later : Handout) => earlier.time + (lease : Int) ≤ later.time

/-- Every delivery of a log is numbered by the hand-outs of its message, itself included. -/
def AttemptsCounted (log : List QueueEvent) : Prop :=
  ∀ past handle time delivery future, log = past ++ .delivered handle time delivery :: future →
    delivery.attempt = (handouts past delivery.receipt).length + 1

/-! ## Logs that grow -/

section Logs

variable {log : List QueueEvent} {event : QueueEvent} {row : QueuedMessage} {seq : Int}
  {lease : Nat}

theorem handouts_append (log : List QueueEvent) (event : QueueEvent) (seq : Int) :
    handouts (log ++ [event]) seq = handouts log seq ++ (event.handout? seq).toList := by
  unfold handouts
  rw [List.filterMap_append]
  cases h : event.handout? seq <;> simp [h]

theorem removals_append_removed (log : List QueueEvent) (row : QueuedMessage) :
    removals (log ++ [.removed row]) = removals log ++ [row] := by
  simp [removals]

theorem removals_append_published (log : List QueueEvent) (row : QueuedMessage) :
    removals (log ++ [.published row]) = removals log := by
  simp [removals]

theorem removals_append_delivered (log : List QueueEvent) (handle : QueueHandle) (time : Int)
    (delivery : Delivery) :
    removals (log ++ [.delivered handle time delivery]) = removals log := by
  simp [removals]

/-- A hand-out that comes a lease after the last one comes a lease after all of them. -/
theorem Spaced.append {handouts : List Handout} (spaced : Spaced lease handouts) {next : Handout}
    (late : ∀ last, handouts.getLast? = some last → last.time + lease ≤ next.time) :
    Spaced lease (handouts ++ [next]) := by
  refine List.pairwise_append.2 ⟨spaced, List.pairwise_singleton _ _, ?_⟩
  intro earlier member later inLast
  rw [List.mem_singleton.1 inLast]
  rcases List.eq_nil_or_concat handouts with rfl | ⟨before, last, rfl⟩
  · cases member
  · have lastLate := late last (by simp)
    rw [List.concat_eq_append] at member spaced
    rcases List.mem_append.1 member with inBefore | isLast
    · have := (List.pairwise_append.1 spaced).2.2 earlier inBefore last List.mem_cons_self
      omega
    · rw [List.mem_singleton.1 isLast]
      exact lastLate

theorem AttemptsCounted.append (counted : AttemptsCounted log)
    (next : ∀ handle time delivery, event = .delivered handle time delivery →
      delivery.attempt = (handouts log delivery.receipt).length + 1) :
    AttemptsCounted (log ++ [event]) := by
  intro past handle time delivery future split
  rcases List.eq_nil_or_concat future with rfl | ⟨before, last, rfl⟩
  · obtain ⟨rfl, same⟩ := List.append_inj' split rfl
    exact next handle time delivery (List.singleton_inj.1 same)
  · have regrouped : log ++ [event] =
        (past ++ .delivered handle time delivery :: before) ++ [last] := by simp [split]
    obtain ⟨rfl, -⟩ := List.append_inj' regrouped rfl
    exact counted past handle time delivery before rfl

end Logs

/-! ## Rows and hand-outs -/

namespace QueueRun

/-- The log of a run tells what the rows say about themselves. -/
structure Leased (run : QueueRun) (lease : Nat) : Prop where
  unchanged : ∀ row ∈ published run.log, ∀ current ∈ run.store.messages, current.seq = row.seq →
    current.message = row.message
  handedOut : ∀ handle time delivery, .delivered handle time delivery ∈ run.log →
    ∃ row ∈ published run.log, row.seq = delivery.receipt ∧ row.message = delivery.message
  claim : ∀ current ∈ run.store.messages,
    current.claim = (handouts run.log current.seq).getLast?.map Handout.claim
  attempts : ∀ current ∈ run.store.messages,
    current.attempts = (handouts run.log current.seq).length
  spaced : ∀ seq, Spaced lease (handouts run.log seq)
  counted : AttemptsCounted run.log
  depth : run.store.messages.length + (removals run.log).length = (published run.log).length

variable {run : QueueRun} {lease : Nat}

/-- A number that has not been given yet has not been handed out. -/
theorem Leased.handouts_eq_nil (leased : run.Leased lease) (accounted : run.Accounted) {seq : Int}
    (new : run.store.nextMessage ≤ seq) : handouts run.log seq = [] := by
  apply List.filterMap_eq_nil_iff.2
  intro event member
  cases event with
  | delivered handle time delivery =>
    obtain ⟨row, inLog, same, -⟩ := leased.handedOut handle time delivery member
    have := accounted.below row inLog
    exact if_neg (by omega)
  | _ => rfl

theorem Leased.publish (leased : run.Leased lease) (accounted : run.Accounted)
    {row : QueuedMessage} (seq : row.seq = run.store.nextMessage) (unclaimed : row.claim = none)
    (unattempted : row.attempts = 0) :
    Leased { store := run.store.withRow row, log := run.log ++ [.published row] } lease := by
  have same (seq : Int) : handouts (run.log ++ [.published row]) seq = handouts run.log seq := by
    rw [handouts_append]
    exact List.append_nil _
  have none : handouts run.log row.seq = [] :=
    leased.handouts_eq_nil accounted (Int.le_of_eq seq.symm)
  refine ⟨?_, ?_, ?_, ?_, ?_, ?_, ?_⟩
  · intro record recordIn current currentIn sameSeq
    rw [published_append_published] at recordIn
    rcases List.mem_append.1 recordIn with oldRecord | newRecord
    · rcases List.mem_append.1 currentIn with old | new
      · exact leased.unchanged record oldRecord current old sameSeq
      · have := accounted.below record oldRecord
        rw [List.mem_singleton.1 new] at sameSeq
        omega
    · rcases List.mem_append.1 currentIn with old | new
      · have := accounted.lined.fresh current old
        rw [List.mem_singleton.1 newRecord] at sameSeq
        omega
      · rw [List.mem_singleton.1 new, List.mem_singleton.1 newRecord]
  · intro handle time delivery member
    rw [published_append_published]
    rcases List.mem_append.1 member with old | new
    · obtain ⟨record, recordIn, found⟩ := leased.handedOut handle time delivery old
      exact ⟨record, List.mem_append_left _ recordIn, found⟩
    · cases List.mem_singleton.1 new
  · intro current currentIn
    show current.claim = (handouts (run.log ++ [.published row]) current.seq).getLast?.map _
    rw [same]
    rcases List.mem_append.1 currentIn with old | new
    · exact leased.claim current old
    · rw [List.mem_singleton.1 new, none, unclaimed]
      rfl
  · intro current currentIn
    show current.attempts = (handouts (run.log ++ [.published row]) current.seq).length
    rw [same]
    rcases List.mem_append.1 currentIn with old | new
    · exact leased.attempts current old
    · rw [List.mem_singleton.1 new, none, unattempted]
      rfl
  · intro seq
    show Spaced lease (handouts (run.log ++ [.published row]) seq)
    rw [same]
    exact leased.spaced seq
  · exact leased.counted.append nofun
  · have := leased.depth
    show (run.store.messages ++ [row]).length + (removals (run.log ++ [.published row])).length =
      (published (run.log ++ [.published row])).length
    rw [published_append_published, removals_append_published, List.length_append,
      List.length_append, List.length_singleton]
    omega

theorem Leased.deliver (leased : run.Leased lease) (accounted : run.Accounted)
    {row : QueuedMessage} {handle : QueueHandle} {time : Int}
    (member : row ∈ run.store.messages)
    (free : ∀ claim, row.claim = some claim → claim.since + lease ≤ time) :
    Leased
      { store := run.store.withClaim row handle.consumer time
        log := run.log ++
          [.delivered handle time (row.claimedBy handle.consumer time).toDelivery] } lease := by
  have others {seq : Int} (other : seq ≠ row.seq) :
      handouts (run.log ++
        [.delivered handle time (row.claimedBy handle.consumer time).toDelivery]) seq =
        handouts run.log seq := by
    rw [handouts_append]
    have : QueueEvent.handout?
        (.delivered handle time (row.claimedBy handle.consumer time).toDelivery) seq = none :=
      if_neg other.symm
    rw [this]
    exact List.append_nil _
  have own : handouts (run.log ++
      [.delivered handle time (row.claimedBy handle.consumer time).toDelivery]) row.seq =
      handouts run.log row.seq ++ [Handout.mk handle time] := by
    rw [handouts_append]
    have : QueueEvent.handout?
        (.delivered handle time (row.claimedBy handle.consumer time).toDelivery) row.seq =
          some (Handout.mk handle time) := if_pos rfl
    rw [this]
    rfl
  refine ⟨?_, ?_, ?_, ?_, ?_, ?_, ?_⟩
  · intro record recordIn current currentIn sameSeq
    rw [published_append_delivered] at recordIn
    rcases Store.mem_withClaim.1 currentIn with ⟨old, -⟩ | ⟨rfl, -⟩
    · exact leased.unchanged record recordIn current old sameSeq
    · exact leased.unchanged record recordIn row member sameSeq
  · intro handle' time' delivery inLog
    rw [published_append_delivered]
    rcases List.mem_append.1 inLog with old | new
    · exact leased.handedOut handle' time' delivery old
    · cases List.mem_singleton.1 new
      obtain ⟨record, recordIn, same, -⟩ := accounted.recorded row member
      exact ⟨record, recordIn, same, (leased.unchanged record recordIn row member same.symm).symm⟩
  · intro current currentIn
    rcases Store.mem_withClaim.1 currentIn with ⟨old, different⟩ | ⟨rfl, -⟩
    · show current.claim = (handouts _ current.seq).getLast?.map _
      rw [others different]
      exact leased.claim current old
    · show some (Claim.mk handle.consumer time) = (handouts _ row.seq).getLast?.map _
      rw [own, List.getLast?_append]
      rfl
  · intro current currentIn
    rcases Store.mem_withClaim.1 currentIn with ⟨old, different⟩ | ⟨rfl, -⟩
    · show current.attempts = (handouts _ current.seq).length
      rw [others different]
      exact leased.attempts current old
    · show row.attempts + 1 = (handouts _ row.seq).length
      rw [own, List.length_append, leased.attempts row member]
      rfl
  · intro seq
    show Spaced lease (handouts _ seq)
    by_cases this : seq = row.seq
    · rw [this, own]
      refine (leased.spaced row.seq).append fun last isLast => ?_
      have claimed := leased.claim row member
      rw [isLast] at claimed
      exact free _ claimed
    · rw [others this]
      exact leased.spaced seq
  · refine leased.counted.append fun handle' time' delivery same => ?_
    cases same
    show row.attempts + 1 = _
    rw [leased.attempts row member]
    rfl
  · have rows : (run.store.withClaim row handle.consumer time).messages.length =
        run.store.messages.length := List.length_map _
    rw [published_append_delivered, removals_append_delivered]
    show (run.store.withClaim row handle.consumer time).messages.length + _ = _
    rw [rows]
    exact leased.depth

end QueueRun

/-- An acknowledgement that counts takes one row away. -/
theorem Store.length_withoutHeld {store : Store} (lined : store.Lined) {row : QueuedMessage}
    {receipt : Int} {consumer : Nat} (member : row ∈ store.messages)
    (held : row.isHeldBy receipt consumer = true) :
    (store.withoutHeld receipt consumer).messages.length + 1 = store.messages.length := by
  have one : (store.messages.filter fun row => row.isHeldBy receipt consumer) = [row] := by
    refine lined.ascending.filter_eq_singleton member fun other otherIn => ?_
    constructor
    · intro otherHeld
      apply lined.ascending.eq_of_key_eq otherIn member
      rw [(QueuedMessage.isHeldBy_iff.1 otherHeld).1, (QueuedMessage.isHeldBy_iff.1 held).1]
    · rintro rfl
      exact held
  have split := List.length_eq_length_filter_add (l := store.messages)
    fun row => row.isHeldBy receipt consumer
  rw [one, List.length_singleton] at split
  show (store.messages.filter fun row => !row.isHeldBy receipt consumer).length + 1 = _
  omega

namespace QueueRun

variable {run : QueueRun} {lease : Nat}

theorem Leased.remove (leased : run.Leased lease) (accounted : run.Accounted)
    {row : QueuedMessage} {receipt : Int} {consumer : Nat} (member : row ∈ run.store.messages)
    (held : row.isHeldBy receipt consumer = true) :
    Leased { store := run.store.withoutHeld receipt consumer, log := run.log ++ [.removed row] }
      lease := by
  have same (seq : Int) : handouts (run.log ++ [.removed row]) seq = handouts run.log seq := by
    rw [handouts_append]
    exact List.append_nil _
  refine ⟨?_, ?_, ?_, ?_, ?_, ?_, ?_⟩
  · intro record recordIn current currentIn sameSeq
    rw [published_append_removed] at recordIn
    exact leased.unchanged record recordIn current (List.mem_filter.1 currentIn).1 sameSeq
  · intro handle time delivery inLog
    rw [published_append_removed]
    rcases List.mem_append.1 inLog with old | new
    · exact leased.handedOut handle time delivery old
    · cases List.mem_singleton.1 new
  · intro current currentIn
    show current.claim = (handouts _ current.seq).getLast?.map _
    rw [same]
    exact leased.claim current (List.mem_filter.1 currentIn).1
  · intro current currentIn
    show current.attempts = (handouts _ current.seq).length
    rw [same]
    exact leased.attempts current (List.mem_filter.1 currentIn).1
  · intro seq
    show Spaced lease (handouts _ seq)
    rw [same]
    exact leased.spaced seq
  · exact leased.counted.append nofun
  · have gone := Store.length_withoutHeld accounted.lined member held
    have := leased.depth
    show (run.store.withoutHeld receipt consumer).messages.length +
      (removals (run.log ++ [.removed row])).length =
        (published (run.log ++ [.removed row])).length
    rw [published_append_removed, removals_append_removed, List.length_append,
      List.length_singleton]
    omega

theorem Leased.step (leased : run.Leased lease) (accounted : run.Accounted) (stamped : run.Stamped)
    {action : QueueAction} (lasts : action.handle.visibility = lease)
    (clock : (Instant.ofMillis action.time).Representable) : (run.step action).Leased lease := by
  have effect := step_effect accounted.lined action
  generalize run.step action = next at effect
  cases effect with
  | nothing => exact leased
  | published request row asked made =>
    exact leased.publish accounted (made ▸ rfl) (made ▸ rfl) (made ▸ rfl)
  | delivered row asked member may =>
    refine leased.deliver accounted member fun claim isClaimed => ?_
    have free := (QueueHandle.mayClaim_iff.1 may).2.2 claim isClaimed
    have began := stamped row member claim isClaimed
    have := (le_expiry_iff began clock).1 free
    omega
  | removed receipt row asked member held => exact leased.remove accounted member held

theorem leased_start {start : Store} (empty : start.messages = []) :
    Leased { store := start } lease where
  unchanged := nofun
  handedOut := nofun
  claim := by simp [empty]
  attempts := by simp [empty]
  spaced := fun _ => List.Pairwise.nil
  counted := by
    intro past handle time delivery future split
    simp at split
  depth := by simp [empty, removals, published]

theorem leased_ofActions {start : Store} (empty : start.messages = [])
    {actions : List QueueAction} (lasts : ∀ action ∈ actions, action.handle.visibility = lease)
    (clock : ∀ action ∈ actions, (Instant.ofMillis action.time).Representable) :
    (ofActions start actions).Leased lease := by
  have stamped : Stamped { store := start } := by
    intro row member
    rw [empty] at member
    cases member
  have all := List.foldlRecOn
    (motive := fun run => run.Accounted ∧ run.Stamped ∧ run.Leased lease) actions step
    ⟨accounted_start empty, stamped, leased_start empty⟩
    fun run h action member => ⟨h.1.step action, h.2.1.step h.1.lined (clock action member),
      h.2.2.step h.1 h.2.1 (lasts action member) (clock action member)⟩
  exact all.2.2

/-! ## What leases keep -/

/-- The consumer was handed the message of a number last. -/
def LastHanded (run : QueueRun) (seq : Int) (consumer : Nat) : Prop :=
  ∃ last, (handouts run.log seq).getLast? = some last ∧ last.handle.consumer = consumer

/-- In a run with leases of one length nothing is lost and nothing handed out twice at a time. -/
structure KeepsLeases (run : QueueRun) (lease : Nat) : Prop where
  /-- A message stays as it was published, or has been taken away. -/
  stays : ∀ row ∈ published run.log, Removed run.log row.seq ∨
    ∃ current ∈ run.store.messages, current.seq = row.seq ∧ current.message = row.message
  /-- Nothing but an acknowledgement by whoever was handed it last takes a message away. -/
  goes : ∀ action, ∀ row ∈ run.store.messages,
    (∃ after ∈ (run.step action).store.messages,
      after.seq = row.seq ∧ after.message = row.message) ∨
    (action.call = .acknowledge row.seq ∧ run.LastHanded row.seq action.handle.consumer)
  /-- Such an acknowledgement does take it away. -/
  acknowledged : ∀ time handle seq, run.store.reaches [.requests] = true →
    run.LastHanded seq handle.consumer →
    ∀ after ∈ (run.step { time, handle, call := .acknowledge seq }).store.messages, after.seq ≠ seq
  /-- Any other acknowledgement changes nothing. -/
  stale : ∀ time handle receipt,
    ((∀ row ∈ run.store.messages, row.seq ≠ receipt) ∨ ¬run.LastHanded receipt handle.consumer) →
    run.step { time, handle, call := .acknowledge receipt } = run
  /-- A receipt belongs to one message for ever. -/
  receipts : Rows.Ascending QueuedMessage.seq (published run.log) ∧
    ∀ handle time delivery, .delivered handle time delivery ∈ run.log →
      ∀ row ∈ published run.log, row.seq = delivery.receipt → row.message = delivery.message
  spaced : ∀ seq, Spaced lease (handouts run.log seq)
  counted : AttemptsCounted run.log
  depth : run.store.reaches [.requests] = true →
    run.store.queueDepth = .ok ((published run.log).length - (removals run.log).length) ∧
    (removals run.log).length ≤ (published run.log).length

theorem Leased.lastHanded_iff (leased : run.Leased lease) {row : QueuedMessage}
    (member : row ∈ run.store.messages) {consumer : Nat} :
    run.LastHanded row.seq consumer ↔ row.isHeldBy row.seq consumer = true := by
  rw [QueuedMessage.isHeldBy_iff, leased.claim row member]
  simp only [LastHanded, Option.map_eq_some_iff, true_and]
  constructor
  · rintro ⟨last, isLast, same⟩
    exact ⟨last.claim, ⟨last, isLast, rfl⟩, same⟩
  · rintro ⟨claim, ⟨last, isLast, rfl⟩, same⟩
    exact ⟨last, isLast, same⟩

theorem Leased.goes (leased : run.Leased lease) (accounted : run.Accounted) (action : QueueAction)
    {row : QueuedMessage} (member : row ∈ run.store.messages) :
    (∃ after ∈ (run.step action).store.messages,
      after.seq = row.seq ∧ after.message = row.message) ∨
    (action.call = .acknowledge row.seq ∧ run.LastHanded row.seq action.handle.consumer) := by
  have effect := step_effect accounted.lined action
  generalize run.step action = next at effect
  cases effect with
  | nothing => exact Or.inl ⟨row, member, rfl, rfl⟩
  | published request new asked made =>
    exact Or.inl ⟨row, List.mem_append_left _ member, rfl, rfl⟩
  | delivered claimed asked claimedIn may =>
    left
    by_cases same : row.seq = claimed.seq
    · obtain rfl := accounted.lined.ascending.eq_of_key_eq member claimedIn same
      exact ⟨_, Store.mem_withClaim.2 (Or.inr ⟨rfl, row, member, rfl⟩), rfl, rfl⟩
    · exact ⟨row, Store.mem_withClaim.2 (Or.inl ⟨member, same⟩), rfl, rfl⟩
  | removed receipt gone asked goneIn held =>
    by_cases here : row.isHeldBy receipt action.handle.consumer = true
    · right
      obtain rfl := (QueuedMessage.isHeldBy_iff.1 here).1
      exact ⟨asked, (leased.lastHanded_iff member).2 here⟩
    · left
      refine ⟨row, List.mem_filter.2 ⟨member, ?_⟩, rfl, rfl⟩
      simpa using here

theorem Leased.stale (leased : run.Leased lease) (accounted : run.Accounted) {time : Int}
    {handle : QueueHandle} {receipt : Int}
    (stale : (∀ row ∈ run.store.messages, row.seq ≠ receipt) ∨
      ¬run.LastHanded receipt handle.consumer) :
    run.step { time, handle, call := .acknowledge receipt } = run := by
  have effect := step_effect accounted.lined { time, handle, call := .acknowledge receipt }
  generalize run.step { time, handle, call := .acknowledge receipt } = next at effect
  cases effect with
  | nothing => rfl
  | published request row asked made => cases asked
  | delivered row asked member may => cases asked
  | removed receipt' row asked member held =>
    cases asked
    obtain rfl := (QueuedMessage.isHeldBy_iff.1 held).1
    rcases stale with gone | passed
    · exact absurd rfl (gone row member)
    · exact absurd ((leased.lastHanded_iff member).2 held) passed

theorem Leased.acknowledged (leased : run.Leased lease) {time : Int} {handle : QueueHandle}
    {seq : Int} (reached : run.store.reaches [.requests] = true)
    (holds : run.LastHanded seq handle.consumer) {after : QueuedMessage}
    (stays : after ∈ (run.step { time, handle, call := .acknowledge seq }).store.messages) :
    after.seq ≠ seq := by
  have performed : QueueAction.perform { time, handle, call := .acknowledge seq } run.store =
      (none, run.store.withoutHeld seq handle.consumer) := by
    simp only [QueueAction.perform, handle.acknowledge_of_reached seq reached]
  rw [step_of_perform performed] at stays
  obtain ⟨member, unheld⟩ := List.mem_filter.1 stays
  rintro rfl
  rw [(leased.lastHanded_iff member).1 holds] at unheld
  cases unheld

theorem Leased.queueDepth (leased : run.Leased lease)
    (reached : run.store.reaches [.requests] = true) :
    run.store.queueDepth = .ok ((published run.log).length - (removals run.log).length) ∧
      (removals run.log).length ≤ (published run.log).length := by
  have depth := leased.depth
  have counted : run.store.queueDepth = .ok run.store.messages.length := by
    have guard : run.store.reachQueue .count = .ok () := Store.reachQueue_eq_ok.2 reached
    unfold Store.queueDepth
    simp only [guard]
    rfl
  refine ⟨counted.trans (congrArg _ ?_), ?_⟩ <;> omega

theorem Leased.keepsLeases (leased : run.Leased lease) (accounted : run.Accounted) :
    run.KeepsLeases lease where
  stays := by
    intro row inLog
    refine (accounted.present row inLog).imp_right ?_
    rintro ⟨current, member, same, -⟩
    exact ⟨current, member, same, leased.unchanged row inLog current member same⟩
  goes := fun action _ member => leased.goes accounted action member
  acknowledged := fun _ _ _ reached holds _ stays => leased.acknowledged reached holds stays
  stale := fun _ _ _ stale => leased.stale accounted stale
  receipts := by
    refine ⟨accounted.numbered, fun handle time delivery inLog row rowIn same => ?_⟩
    obtain ⟨record, recordIn, recordSame, message⟩ := leased.handedOut handle time delivery inLog
    rw [accounted.numbered.eq_of_key_eq rowIn recordIn (same.trans recordSame.symm)]
    exact message
  spaced := leased.spaced
  counted := leased.counted
  depth := leased.queueDepth

end QueueRun

/-- **Leases.** After any actions on an empty queue of handles whose leases last for one time, by a
clock that shows instants of the calendar: a published message stays as it is until the consumer
that was handed it last acknowledges it, and any other acknowledgement changes nothing; the
hand-outs of a message are a lease apart and counted; and the depth of the queue is the number of
messages that were published and not taken away. -/
theorem leases_kept {start : Store} (empty : start.messages = []) {lease : Nat}
    {actions : List QueueAction} (lasts : ∀ action ∈ actions, action.handle.visibility = lease)
    (clock : ∀ action ∈ actions, (Instant.ofMillis action.time).Representable) :
    (QueueRun.ofActions start actions).KeepsLeases lease :=
  (QueueRun.leased_ofActions empty lasts clock).keepsLeases
    (QueueRun.accounted_ofActions empty actions)

/-- A consumer crashes with a message, which goes to another one once the lease has run out; the
late acknowledgement of the first consumer is overheard. -/
def lateAcknowledgement : List QueueAction :=
  let request : ReportRequest :=
    { id := { value := 11, value_lt := by decide }, user := 3, since := .epoch }
  [{ time := 0, handle := { consumer := 1 }, call := .publish request },
    { time := 10, handle := { consumer := 1 }, call := .claim },
    { time := 20, handle := { consumer := 2 }, call := .claim },
    { time := 60010, handle := { consumer := 2 }, call := .claim },
    { time := 60020, handle := { consumer := 1 }, call := .acknowledge 1 }]

theorem lateAcknowledgement_leases_kept :
    (∀ action ∈ lateAcknowledgement, action.handle.visibility = 60000) ∧
      (∀ action ∈ lateAcknowledgement, (Instant.ofMillis action.time).Representable) ∧
      ((QueueRun.ofActions {} lateAcknowledgement).store.messages.map
        fun row => (row.attempts, row.claim)) = [(2, some { consumer := 2, since := 60010 })] ∧
      (QueueRun.ofActions {} lateAcknowledgement).KeepsLeases 60000 :=
  ⟨by decide, by decide, by decide +kernel, leases_kept rfl (by decide) (by decide)⟩

end ExpenseLedger
