import ExpenseLedger.Proofs.Report.Interleaving

/-!
# Who waits, and what was sent

`ReportWorld.step_turns` says all that an action can do to the calls and to those who wait. Of every
call, a run keeps a tally: it is in the table of those who wait while it is registered and has no
answer yet, and one request of it has gone out if it has ever waited for an answer, none if not.
-/

namespace ExpenseLedger

/-! ## What the desk holds under an id -/

/-- What a call is registered as. -/
def ReportCall.waiter (call : ReportCall) : Waiter :=
  { id := call.id, user := call.user }

/-- A reply with the id has been taken in. -/
def HandedOver (log : List ReportEvent) (id : Uuid) : Prop :=
  ∃ reply, .handed reply ∈ log ∧ reply.id = id

namespace Desk

/-- The requests with an id that have gone out. -/
def requestsOf (desk : Desk) (id : Uuid) : List ReportRequest :=
  desk.published.filter fun request => request.id = id

/-- The desks agree on everything but the books. -/
structure SameHeld (desk after : Desk) : Prop where
  waiters : after.waiters = desk.waiters
  mail : after.mail = desk.mail
  published : after.published = desk.published

theorem SameHeld.refl (desk : Desk) : SameHeld desk desk :=
  ⟨rfl, rfl, rfl⟩

variable {desk after : Desk} {request : ReportRequest} {id : Uuid}

theorem requestsOf_of_same (published : after.published = desk.published) :
    after.requestsOf id = desk.requestsOf id := by
  unfold requestsOf
  rw [published]

theorem Sends.requestsOf_self (sends : desk.Sends request after) :
    after.requestsOf request.id = desk.requestsOf request.id ++ [request] := by
  unfold requestsOf
  rw [sends.published, List.filter_append]
  simp

theorem Sends.requestsOf_other (sends : desk.Sends request after) (apart : request.id ≠ id) :
    after.requestsOf id = desk.requestsOf id := by
  unfold requestsOf
  rw [sends.published, List.filter_append]
  simp [apart]

end Desk

/-! ## What an action does to the calls -/

/-- The call that an action moves. -/
def ReportAction.caller? : ReportAction → Option Nat
  | .proceed caller _ | .cancel caller => some caller
  | _ => none

namespace ReportWorld

/-- What an action can do to the calls and to those who wait: it leaves them alone, begins a call,
moves the one that it is about, or hands a reply over to one that waits. -/
inductive Turn (world : ReportWorld) (action : ReportAction) : ReportWorld → Prop
  | aside (after : ReportWorld) (calls : after.calls = world.calls) (log : after.log = world.log)
      (held : world.desk.SameHeld after.desk) : Turn world action after
  | begun (call : ReportCall) (stage : call.stage = .begun) :
      Turn world action { world with calls := world.calls ++ [call] }
  | moved (caller : Nat) (own : action.caller? = some caller) (call : ReportCall)
      (found : world.calls[caller]? = some call) (now : Int) (stage : CallStage) (desk : Desk)
      (effect : call.Effect now world.desk call.stage stage desk) (took : Option Reply) :
      Turn world action (world.move caller (call.toStage stage, desk) took)
  | handed (reply : Reply) (waiter : Waiter) (waits : waiter ∈ world.desk.waiters)
      (same : waiter.id = reply.id) :
      Turn world action { world with
        desk := { world.desk with
          waiters := world.desk.waiters.filter fun waiter => waiter.id ≠ reply.id
          mail := world.desk.mail ++ [reply] }
        log := .handed reply :: world.log }

theorem Turn.idle (world : ReportWorld) (action : ReportAction) : Turn world action world :=
  .aside world rfl rfl (.refl _)

theorem arrive_turns (world : ReportWorld) (action : ReportAction) (reply : Reply) :
    Turn world action (world.arrive reply) := by
  rcases Paired.deliver_eq world.desk reply with ⟨waiter, waits, same, -, taken⟩ | refused
  · simp only [arrive, taken, if_true]
    exact .handed reply waiter waits same
  · simp only [arrive, refused]
    exact .idle world action

theorem step_turns (settings : ReportSettings) (limit : Int) (world : ReportWorld)
    (action : ReportAction) : Turn world action (world.step settings limit action) := by
  cases action with
  | begin id user since => exact .begun _ rfl
  | proceed caller now =>
    cases found : world.calls[caller]? with
    | none =>
      simp only [step, found]
      exact .idle world _
    | some call =>
      obtain ⟨stage, desk, stepped, effect⟩ := ReportCall.step_effect settings now call world.desk
      simp only [step, found, stepped]
      exact .moved caller rfl call found now stage desk effect _
  | cancel caller =>
    cases found : world.calls[caller]? with
    | none =>
      simp only [step, found]
      exact .idle world _
    | some call =>
      simp only [step, found]
      rcases ReportCall.cancel_effect 0 call world.desk with stays | ⟨e, cancelled, effect⟩
      · rw [stays]
        refine .aside _ ?_ rfl (.refl _)
        obtain ⟨inside, rfl⟩ := List.getElem?_eq_some_iff.1 found
        exact List.set_getElem_self inside
      · rw [cancelled]
        exact .moved caller rfl call found 0 _ _ effect none
  | ledger action => exact .aside _ rfl rfl ⟨rfl, rfl, rfl⟩
  | publishElsewhere handle request now => exact .aside _ rfl rfl ⟨rfl, rfl, rfl⟩
  | claim handle now =>
    simp only [step]
    split
    · exact .aside _ rfl rfl ⟨rfl, rfl, rfl⟩
    · exact .idle world _
  | prepare index =>
    simp only [step]
    split
    · exact .idle world _
    · split
      · exact .aside _ rfl rfl ⟨rfl, rfl, rfl⟩
      · exact .idle world _
  | deliver index =>
    simp only [step]
    split
    · exact .idle world _
    · exact world.arrive_turns _ _
  | deliverStray reply =>
    simp only [step]
    split
    · exact .idle world _
    · exact world.arrive_turns _ reply
  | settle handle receipt =>
    refine .aside _ rfl rfl ?_
    simp only [step, Worker.settle]
    split
    · exact ⟨rfl, rfl, rfl⟩
    · exact .refl _

end ReportWorld

/-! ## The tally -/

/-- One request of a call has gone out, the one that it waits or has waited for, or none has, and it
has never waited. -/
def Sent (worlds : List ReportWorld) (desk : Desk) (caller : Nat) (call : ReportCall) : Prop :=
  (Waited worlds caller ∧ desk.requestsOf call.id = [call.request]) ∨
    (¬Waited worlds caller ∧ desk.requestsOf call.id = [])

/-- Whoever is registered and has no answer waits, once; and of every call there is one request or
none. -/
structure Tallied (run : ReportRun) : Prop where
  waits : ∀ call ∈ run.world.calls, 4 ≤ call.stage.rank → call.stage.rank ≤ 5 →
    ¬HandedOver run.world.log call.id → call.waiter ∈ run.world.desk.waiters
  once : (run.world.desk.waiters.map Waiter.id).Nodup
  sent : ∀ caller call, run.world.calls[caller]? = some call →
    Sent run.worlds run.world.desk caller call
  requests : ∀ request ∈ run.world.desk.published, ∃ call ∈ run.world.calls, call.id = request.id

/-! ## The steps of a call -/

namespace ReportCall

variable {call : ReportCall} {now : Int} {desk after : Desk} {stage : CallStage}

/-- A step of a call sends its own request, or nothing. -/
theorem Effect.sends (effect : Effect call now desk call.stage stage after) :
    (after.published = desk.published ∧ (stage.rank = 5 → call.stage.rank = 5)) ∨
      (desk.Sends call.request after ∧ call.stage.rank = 4 ∧ stage.rank = 5) := by
  generalize here : call.stage = first at effect
  cases effect with
  | published rate deadline after sends => exact Or.inr ⟨sends, rfl, rfl⟩
  | waited rate deadline => exact Or.inl ⟨rfl, fun _ => rfl⟩
  | _ => exact Or.inl ⟨rfl, nofun⟩

/-- A step of a call enters it into the table of those who wait, or takes it from there, or leaves
the table alone. -/
theorem Effect.waiters_eq (effect : Effect call now desk call.stage stage after) :
    (after.waiters = desk.waiters ∧
      (4 ≤ stage.rank → stage.rank ≤ 5 → 4 ≤ call.stage.rank ∧ call.stage.rank ≤ 5)) ∨
      (after.waiters = desk.waiters ++ [call.waiter] ∧ call.stage.rank = 3 ∧ stage.rank = 4) ∨
      (after.waiters = desk.waiters.filter (fun waiter => waiter.id ≠ call.id) ∧
        6 ≤ stage.rank) := by
  generalize here : call.stage = first at effect
  cases effect with
  | registered rate => exact Or.inr (Or.inl ⟨rfl, rfl, rfl⟩)
  | published rate deadline after sends =>
    exact Or.inl ⟨sends.waiters, fun _ _ => ⟨by simp, by simp⟩⟩
  | waited rate deadline => exact Or.inl ⟨rfl, fun _ _ => ⟨by simp, by simp⟩⟩
  | cached | answered | returned | failed => exact Or.inr (Or.inr ⟨rfl, by simp⟩)
  | missed | userRead | rated | aggregated | ended => exact Or.inl ⟨rfl, by simp⟩

end ReportCall

/-! ## Every action keeps the tally -/

/-- If a call that waits waited already, then nobody has waited for the first time. -/
theorem waited_cons {run : ReportRun} {next : ReportWorld} {caller : Nat}
    (still : ∀ moved, next.calls[caller]? = some moved → moved.stage.rank = 5 →
      ∃ old, run.world.calls[caller]? = some old ∧ old.stage.rank = 5) :
    Waited (next :: run.worlds) caller ↔ Waited run.worlds caller := by
  constructor
  · rintro ⟨world, member, stage, at_, waits⟩
    rcases List.mem_cons.1 member with rfl | past
    · obtain ⟨moved, found, rfl⟩ := stage?_eq_some at_
      obtain ⟨old, before, rank⟩ := still moved found (CallStage.isWaiting_iff.1 waits)
      exact ⟨run.world, List.mem_cons_self, old.stage, stage?_eq before,
        CallStage.isWaiting_iff.2 rank⟩
    · exact ⟨world, past, stage, at_, waits⟩
  · rintro ⟨world, past, rest⟩
    exact ⟨world, List.mem_cons_of_mem _ past, rest⟩

theorem Sent.same {run : ReportRun} {next : ReportWorld} {desk after : Desk} {caller : Nat}
    {call : ReportCall} (sent : Sent run.worlds desk caller call)
    (requests : after.requestsOf call.id = desk.requestsOf call.id)
    (still : ∀ moved, next.calls[caller]? = some moved → moved.stage.rank = 5 →
      ∃ old, run.world.calls[caller]? = some old ∧ old.stage.rank = 5) :
    Sent (next :: run.worlds) after caller call := by
  unfold Sent
  rw [requests, waited_cons still]
  exact sent

namespace Tallied

variable {used : List Uuid} {run : ReportRun} (tallied : Tallied run)

include tallied

theorem aside {after : ReportWorld} (calls : after.calls = run.world.calls)
    (log : after.log = run.world.log) (held : run.world.desk.SameHeld after.desk) :
    Tallied { world := after, past := run.worlds } where
  waits := by
    rw [calls, log, held.waiters]
    exact tallied.waits
  once := by
    rw [held.waiters]
    exact tallied.once
  sent := by
    rw [calls]
    intro caller call found
    refine (tallied.sent caller call found).same (Desk.requestsOf_of_same held.published) ?_
    intro moved here rank
    rw [calls] at here
    exact ⟨moved, here, rank⟩
  requests := by
    rw [calls, held.published]
    exact tallied.requests

theorem begun (paired : Paired used run) {call : ReportCall} (stage : call.stage = .begun)
    (fresh : ∀ old ∈ run.world.calls, old.id ≠ call.id) :
    Tallied
      { world := { run.world with calls := run.world.calls ++ [call] }, past := run.worlds } where
  waits := by
    intro other member low high
    rcases List.mem_append.1 member with old | new
    · exact tallied.waits other old low high
    · rw [List.mem_singleton.1 new, stage] at low
      cases low
  once := tallied.once
  sent := by
    intro caller other found
    rcases getElem?_begin.1 found with before | ⟨rfl, rfl⟩
    · refine (tallied.sent caller other before).same rfl fun moved here rank => ?_
      rcases getElem?_begin.1 here with old | ⟨-, rfl⟩
      · exact ⟨moved, old, rank⟩
      · rw [stage] at rank
        cases rank
    · -- The call has a new place and a new id: nothing is known of it.
      have unsent : run.world.desk.requestsOf other.id = [] := by
        refine List.filter_eq_nil_iff.2 fun request member same => ?_
        obtain ⟨owner, inCalls, owned⟩ := tallied.requests request member
        exact fresh owner inCalls (owned.trans (of_decide_eq_true same))
      have unseen : ¬Waited run.worlds run.world.calls.length := by
        rintro ⟨world, past, stage, at_, -⟩
        obtain ⟨old, found, -⟩ := paired.ranks world past _ stage at_
        rw [List.getElem?_eq_none (Nat.le_refl _)] at found
        cases found
      refine Sent.same (Or.inr ⟨unseen, unsent⟩) rfl fun moved here rank => ?_
      rcases getElem?_begin.1 here with old | ⟨-, rfl⟩
      · exact ⟨moved, old, rank⟩
      · rw [stage] at rank
        cases rank
  requests := by
    intro request member
    obtain ⟨owner, inCalls, owned⟩ := tallied.requests request member
    exact ⟨owner, List.mem_append_left _ inCalls, owned⟩

section Moved

variable {caller : Nat} {call : ReportCall} {now : Int} {stage : CallStage} {desk : Desk}
  (paired : Paired used run) (found : run.world.calls[caller]? = some call)
  (effect : call.Effect now run.world.desk call.stage stage desk)

include paired found effect

omit tallied effect in
/-- Nobody else has the id of a call. -/
theorem apart_of_move {other : Nat} {old : ReportCall} (different : other ≠ caller)
    (before : run.world.calls[other]? = some old) : call.id ≠ old.id :=
  fun same => different (caller_unique paired.distinct before found same.symm)

theorem waits_of_move : ∀ moved ∈ run.world.calls.set caller (call.toStage stage),
    4 ≤ moved.stage.rank → moved.stage.rank ≤ 5 → ¬HandedOver run.world.log moved.id →
      moved.waiter ∈ desk.waiters := by
  intro moved member low high unanswered
  obtain ⟨other, here⟩ := List.mem_iff_getElem?.1 member
  rcases (getElem?_move found).1 here with ⟨rfl, rfl⟩ | ⟨different, before⟩
  · rcases effect.waiters_eq with ⟨same, registered⟩ | ⟨entered, -, -⟩ | ⟨-, left⟩
    · rw [same]
      obtain ⟨low', high'⟩ := registered low high
      exact tallied.waits call (List.mem_of_getElem? found) low' high' unanswered
    · rw [entered]
      exact List.mem_append_right _ (List.mem_singleton_self _)
    · exact absurd left (Nat.not_le.2 (Nat.lt_succ_of_le high))
  · have waits := tallied.waits moved (List.mem_of_getElem? before) low high unanswered
    rcases effect.waiters_eq with ⟨same, -⟩ | ⟨entered, -, -⟩ | ⟨left, -⟩
    · rw [same]
      exact waits
    · rw [entered]
      exact List.mem_append_left _ waits
    · rw [left]
      have apart := apart_of_move paired found different before
      exact List.mem_filter.2 ⟨waits, decide_eq_true apart.symm⟩

theorem once_of_move : (desk.waiters.map Waiter.id).Nodup := by
  rcases effect.waiters_eq with ⟨same, -⟩ | ⟨entered, rank, -⟩ | ⟨left, -⟩
  · rw [same]
    exact tallied.once
  · -- Whoever waits under the id would be the call itself, which has not been registered yet.
    rw [entered, List.map_append]
    refine List.Nodup.append tallied.once (List.nodup_singleton _) fun id old new => ?_
    obtain ⟨waiter, member, same⟩ := List.mem_map.1 old
    obtain ⟨other, owner, here, owned, -, low, -⟩ := paired.waiters waiter member
    have clash : owner.id = call.id := owned.trans (same.trans (List.mem_singleton.1 new))
    obtain rfl := caller_unique paired.distinct here found clash
    rw [found] at here
    cases here
    omega
  · rw [left]
    exact tallied.once.sublist (List.filter_sublist.map _)

theorem sent_of_move {next : ReportWorld}
    (calls : next.calls = run.world.calls.set caller (call.toStage stage)) {other : Nat}
    {moved : ReportCall} (here : next.calls[other]? = some moved) :
    Sent (next :: run.worlds) desk other moved := by
  rw [calls] at here
  rcases (getElem?_move found).1 here with ⟨rfl, rfl⟩ | ⟨different, before⟩
  · rcases effect.sends with ⟨same, waits⟩ | ⟨sends, unsent, waits⟩
    · have sent : Sent run.worlds run.world.desk other (call.toStage stage) :=
        tallied.sent other call found
      refine sent.same (Desk.requestsOf_of_same same) fun next here' rank => ?_
      rw [calls, here] at here'
      cases here'
      exact ⟨call, found, waits rank⟩
    · -- The call goes from having sent nothing to waiting for its one request.
      have quiet : ¬Waited run.worlds other := by
        rintro ⟨world, past, old, at_, waiting⟩
        obtain ⟨call', found', rank_le⟩ := paired.ranks world past other old at_
        rw [found] at found'
        cases found'
        have rank := CallStage.isWaiting_iff.1 waiting
        omega
      have nothing : run.world.desk.requestsOf call.id = [] :=
        (tallied.sent other call found).elim (fun sent => absurd sent.1 quiet) And.right
      have one : desk.requestsOf call.id = [call.request] := by
        rw [show call.id = call.request.id from rfl, sends.requestsOf_self]
        exact congrArg (· ++ [call.request]) nothing
      have there : next.calls[other]? = some (call.toStage stage) := calls ▸ here
      exact Or.inl ⟨⟨next, List.mem_cons_self, stage, stage?_eq there,
        CallStage.isWaiting_iff.2 waits⟩, one⟩
  · have apart := apart_of_move paired found different before
    have same : desk.requestsOf moved.id = run.world.desk.requestsOf moved.id := by
      rcases effect.sends with ⟨same, -⟩ | ⟨sends, -, -⟩
      · exact Desk.requestsOf_of_same same
      · exact sends.requestsOf_other apart
    refine (tallied.sent other moved before).same same fun next here' rank => ?_
    rw [calls, here] at here'
    cases here'
    exact ⟨moved, before, rank⟩

omit paired in
theorem requests_of_move : ∀ request ∈ desk.published,
    ∃ owner ∈ run.world.calls.set caller (call.toStage stage), owner.id = request.id := by
  intro request member
  have here : (run.world.calls.set caller (call.toStage stage))[caller]? =
      some (call.toStage stage) := (getElem?_move found).2 (Or.inl ⟨rfl, rfl⟩)
  have old (before : request ∈ run.world.desk.published) :
      ∃ owner ∈ run.world.calls.set caller (call.toStage stage), owner.id = request.id := by
    obtain ⟨owner, inCalls, owned⟩ := tallied.requests request before
    obtain ⟨other, at_⟩ := List.mem_iff_getElem?.1 inCalls
    obtain ⟨moved, there, same, -⟩ := Paired.onward_of_move found effect.move at_
    exact ⟨moved, List.mem_of_getElem? there, same.trans owned⟩
  rcases effect.sends with ⟨same, -⟩ | ⟨sends, -, -⟩
  · exact old (same ▸ member)
  · rw [sends.published] at member
    rcases List.mem_append.1 member with before | new
    · exact old before
    · rw [List.mem_singleton.1 new]
      exact ⟨_, List.mem_of_getElem? here, rfl⟩

theorem moved (took : Option Reply) :
    Tallied { world := run.world.move caller (call.toStage stage, desk) took
              past := run.worlds } where
  waits := by
    intro moved member low high unanswered
    refine tallied.waits_of_move paired found effect moved member low high ?_
    rintro ⟨reply, handed, same⟩
    exact unanswered ⟨reply, List.mem_append_right _ handed, same⟩
  once := tallied.once_of_move paired found effect
  sent := fun other moved here => tallied.sent_of_move paired found effect rfl here
  requests := tallied.requests_of_move found effect

end Moved

theorem handed (reply : Reply) :
    Tallied
      { world := { run.world with
          desk := { run.world.desk with
            waiters := run.world.desk.waiters.filter fun waiter => waiter.id ≠ reply.id
            mail := run.world.desk.mail ++ [reply] }
          log := .handed reply :: run.world.log }
        past := run.worlds } where
  waits := by
    intro call member low high unanswered
    have waits := tallied.waits call member low high fun ⟨other, before, same⟩ =>
      unanswered ⟨other, List.mem_cons_of_mem _ before, same⟩
    refine List.mem_filter.2 ⟨waits, decide_eq_true fun same => ?_⟩
    exact unanswered ⟨reply, List.mem_cons_self, same.symm⟩
  once := tallied.once.sublist (List.filter_sublist.map _)
  sent := fun caller call found =>
    (tallied.sent caller call found).same rfl fun moved here rank => ⟨moved, here, rank⟩
  requests := tallied.requests

theorem step (paired : Paired used run) {used' : List Uuid} {settings : ReportSettings} {limit : Int}
    {action : ReportAction} (paired' : Paired used' (run.step settings limit action)) :
    Tallied (run.step settings limit action) := by
  have turn := run.world.step_turns settings limit action
  unfold ReportRun.step at paired' ⊢
  generalize run.world.step settings limit action = after at turn paired' ⊢
  cases turn with
  | aside _ calls log held => exact tallied.aside calls log held
  | begun call stage =>
    refine tallied.begun paired stage fun old member same => ?_
    have distinct := paired'.distinct
    simp only [List.map_append, List.nodup_append] at distinct
    exact distinct.2.2 old.id (List.mem_map_of_mem member) call.id
      (List.mem_map_of_mem (List.mem_singleton_self call)) same
  | moved caller own call found now stage desk effect took =>
    exact tallied.moved paired found effect took
  | handed reply waiter waits same => exact tallied.handed reply

end Tallied

/-! ## Runs of a new desk -/

/-- A desk of a process that has just begun, over any tables. -/
structure Desk.IsNew (desk : Desk) : Prop where
  noWaiters : desk.waiters = []
  noMail : desk.mail = []
  noRequests : desk.published = []

/-- The correlation ids of what is in the queue. -/
def Store.queuedIds (store : Store) : List Uuid :=
  store.messages.filterMap fun row => row.message.decode.toOption.map ReportRequest.id

/-- The correlation ids that the actions bring are new, each of them once. -/
structure FreshIds (desk : Desk) (actions : List ReportAction) : Prop where
  distinct : (actions.filterMap ReportAction.newId?).Nodup
  apart : ∀ id ∈ actions.filterMap ReportAction.newId?, id ∉ desk.books.store.queuedIds

theorem FreshIds.earlier {desk : Desk} {actions later : List ReportAction}
    (fresh : FreshIds desk (actions ++ later)) : FreshIds desk actions := by
  obtain ⟨distinct, apart⟩ := fresh
  rw [List.filterMap_append] at distinct apart
  exact ⟨(List.nodup_append.1 distinct).1, fun id member => apart id (List.mem_append_left _ member)⟩

theorem ReportRun.ofActions_append (settings : ReportSettings) (limit : Int) (desk : Desk)
    (actions later : List ReportAction) :
    ReportRun.ofActions settings limit desk (actions ++ later) =
      later.foldl (ReportRun.step settings limit) (ReportRun.ofActions settings limit desk actions) :=
  List.foldl_append

section Runs

variable (settings : ReportSettings) (limit : Int) {desk : Desk} (new : desk.IsNew)
  {actions : List ReportAction} (fresh : FreshIds desk actions)

include new fresh

theorem exists_paired : ∃ used, Paired used (ReportRun.ofActions settings limit desk actions) := by
  have queued : ∀ row ∈ desk.books.store.messages,
      OwnRequest desk.books.store.queuedIds [] row.message := by
    intro row member request decoded
    have known : request.id ∈ desk.books.store.queuedIds := by
      refine List.mem_filterMap.2 ⟨row, member, ?_⟩
      rw [decoded]
      rfl
    exact ⟨known, fun call none => absurd none List.not_mem_nil⟩
  obtain ⟨used, paired, -⟩ := Paired.ofActions_over settings limit queued new.noWaiters new.noMail
    fresh.distinct fresh.apart
  exact ⟨used, paired⟩

theorem tallied_ofActions : Tallied (ReportRun.ofActions settings limit desk actions) := by
  induction actions using List.reverseRecOn with
  | nil =>
    exact {
      waits := by
        intro call member
        cases member
      once := by
        show (desk.waiters.map Waiter.id).Nodup
        rw [new.noWaiters]
        exact List.nodup_nil
      sent := by
        intro caller call found
        cases found
      requests := by
        intro request member
        have none : request ∈ desk.published := member
        rw [new.noRequests] at none
        cases none }
  | append_singleton actions action ih =>
    obtain ⟨used, paired⟩ := exists_paired settings limit new fresh.earlier
    obtain ⟨used', paired'⟩ := exists_paired settings limit new fresh
    rw [ReportRun.ofActions_append] at paired' ⊢
    exact (ih fresh.earlier).step paired paired'

end Runs

/-! ## The table of those who wait -/

section Table

variable {used : List Uuid} {run : ReportRun} (paired : Paired used run)

include paired

/-- A call that has gone on from waiting has its rows from a reply. -/
theorem Paired.answered {caller : Nat} {call : ReportCall}
    (found : run.world.calls[caller]? = some call) (low : 6 ≤ call.stage.rank)
    (high : call.stage.rank < 8) :
    ∃ rows, Answered run.worlds run.world.log caller call rows := by
  have justified := paired.justified caller call found
  unfold Justified at justified
  cases stage : call.stage with
  | answered rate rows =>
    rw [stage] at justified
    exact ⟨rows, justified.2⟩
  | aggregated report =>
    rw [stage] at justified
    obtain ⟨rate, rows, -, answered, -⟩ := justified
    exact ⟨rows, answered⟩
  | _ =>
    rw [stage] at low high
    simp at low high

theorem Paired.handedOver {caller : Nat} {call : ReportCall}
    (found : run.world.calls[caller]? = some call) (low : 6 ≤ call.stage.rank)
    (high : call.stage.rank < 8) : HandedOver run.world.log call.id := by
  obtain ⟨rows, reply, taken, -, -⟩ := paired.answered found low high
  obtain ⟨handed, owner, here, same, -⟩ := paired.taken caller reply taken
  rw [found] at here
  cases here
  exact ⟨reply, handed, same.symm⟩

theorem Paired.waited {caller : Nat} {call : ReportCall}
    (found : run.world.calls[caller]? = some call) (low : 5 ≤ call.stage.rank)
    (high : call.stage.rank < 8) : Waited run.worlds caller := by
  rcases Nat.eq_or_lt_of_le low with waits | beyond
  · exact ⟨run.world, List.mem_cons_self, call.stage, stage?_eq found,
      CallStage.isWaiting_iff.2 waits.symm⟩
  · obtain ⟨rows, reply, -, -, read⟩ := paired.answered found beyond high
    obtain ⟨world, member, waits, -⟩ := read
    exact ⟨world, member, waits⟩

/-- Those wait who have registered, have no answer yet, and have not ended. -/
theorem Tallied.mem_waiters_iff (tallied : Tallied run) {waiter : Waiter} :
    waiter ∈ run.world.desk.waiters ↔ ∃ call ∈ run.world.calls, waiter = call.waiter ∧
      4 ≤ call.stage.rank ∧ call.result? = none ∧ ¬HandedOver run.world.log call.id := by
  constructor
  · intro member
    obtain ⟨caller, call, found, id, user, low, high⟩ := paired.waiters waiter member
    refine ⟨call, List.mem_of_getElem? found, ?_, low, ?_, ?_⟩
    · unfold ReportCall.waiter
      rw [id, user]
    · unfold ReportCall.result?
      split
      · next stage =>
        rw [stage] at high
        simp at high
      · rfl
    · rintro ⟨reply, handed, same⟩
      exact (paired.handed reply handed).2 waiter member (id.symm.trans same.symm)
  · rintro ⟨call, member, rfl, low, open_, unanswered⟩
    obtain ⟨caller, found⟩ := List.mem_iff_getElem?.1 member
    refine tallied.waits call member low (Nat.not_lt.1 fun high => ?_) unanswered
    refine unanswered (paired.handedOver found high ?_)
    unfold ReportCall.result? at open_
    cases stage : call.stage with
    | finished result =>
      rw [stage] at open_
      cases open_
    | _ => simp

/-- Nobody waits under the id of a call that has ended. -/
theorem Paired.absent_of_ended {call : ReportCall} (member : call ∈ run.world.calls)
    {result : Outcome Report} (ended : call.stage = .finished result) :
    ∀ waiter ∈ run.world.desk.waiters, waiter.id ≠ call.id := by
  intro waiter waits same
  obtain ⟨caller, found⟩ := List.mem_iff_getElem?.1 member
  obtain ⟨other, owner, here, owned, -, -, high⟩ := paired.waiters waiter waits
  obtain rfl := caller_unique paired.distinct here found (owned.trans same)
  rw [found] at here
  cases here
  rw [ended] at high
  simp at high

/-- A reply for a call that has ended is refused. -/
theorem Paired.deliver_of_ended {call : ReportCall} (member : call ∈ run.world.calls)
    {result : Outcome Report} (ended : call.stage = .finished result) {reply : Reply}
    (same : reply.id = call.id) : run.world.desk.deliver reply = (.noWaiter, run.world.desk) := by
  rcases Paired.deliver_eq run.world.desk reply with ⟨waiter, waits, id, -, -⟩ | refused
  · exact absurd (id.trans same) (paired.absent_of_ended member ended waiter waits)
  · exact refused

end Table
end ExpenseLedger
