import Mathlib.Data.List.Nodup
import ExpenseLedger.Proofs.Report.Past

/-!
# The invariant of interleaved reports

`Paired` ties the calls of a run to whoever waits at the desk, to the requests in the queue and to
the replies on their way: whatever is for a call has its id, its user and its window, and its rows
were read while the call was waiting. Here the calls stand still, and writers, workers, deliveries
and other desks act around them.
-/

namespace ExpenseLedger

/-! ## The invariant -/

/-- The replies that the desk has taken in, the latest first. -/
def handedReplies (log : List ReportEvent) : List Reply :=
  log.filterMap fun
    | .handed reply => some reply
    | .taken _ _ => none

/-- The replies that calls have taken, with the places of the calls, the latest first. -/
def takenReplies (log : List ReportEvent) : List (Nat × Reply) :=
  log.filterMap fun
    | .handed _ => none
    | .taken caller reply => some (caller, reply)

theorem mem_handedReplies {log : List ReportEvent} {reply : Reply} :
    reply ∈ handedReplies log ↔ .handed reply ∈ log := by
  unfold handedReplies
  rw [List.mem_filterMap]
  constructor
  · rintro ⟨event, member, same⟩
    cases event with
    | handed other =>
      cases same
      exact member
    | taken caller other => cases same
  · intro member
    exact ⟨_, member, rfl⟩

theorem mem_takenReplies {log : List ReportEvent} {caller : Nat} {reply : Reply} :
    (caller, reply) ∈ takenReplies log ↔ .taken caller reply ∈ log := by
  unfold takenReplies
  rw [List.mem_filterMap]
  constructor
  · rintro ⟨event, member, same⟩
    cases event with
    | handed other => cases same
    | taken other taken =>
      cases same
      exact member
  · intro member
    exact ⟨_, member, rfl⟩

/-- A message is the request of the call of its id, if there is one, and the call has published
it. -/
def OwnRequest (used : List Uuid) (calls : List ReportCall) (message : Message) : Prop :=
  ∀ request, message.decode = .ok request → request.id ∈ used ∧
    ∀ call ∈ calls, call.id = request.id → 5 ≤ call.stage.rank ∧ request.user = call.user ∧
      request.since.seconds = call.since.seconds

/-- A prepared reply is for the call of its id, if there is one: the call has published, and if it
still waits, the rows were read while it was waiting. -/
def Ready (used : List Uuid) (worlds : List ReportWorld) (calls : List ReportCall)
    (reply : Reply) : Prop :=
  reply.id ∈ used ∧ ∀ (caller : Nat) (call : ReportCall), calls[caller]? = some call →
    call.id = reply.id → 5 ≤ call.stage.rank ∧ (call.stage.rank = 5 →
      ReadWhileWaiting worlds caller call.user call.since reply.expenses)

/-- A reply that was taken in is for a call that waits, and the rows were read while it was
waiting. -/
def Pending (worlds : List ReportWorld) (calls : List ReportCall) (reply : Reply) : Prop :=
  ∃ (caller : Nat) (call : ReportCall), calls[caller]? = some call ∧ call.id = reply.id ∧
    call.stage.rank = 5 ∧ ReadWhileWaiting worlds caller call.user call.since reply.expenses

/-- Calls stay the same ones and do not go back, and others have new ids. -/
def Continues (used : List Uuid) (before after : List ReportCall) : Prop :=
  ∀ (caller : Nat) (next : ReportCall), after[caller]? = some next → next.id ∉ used ∨
    ∃ call : ReportCall, before[caller]? = some call ∧ next.id = call.id ∧ next.user = call.user ∧
      next.since = call.since ∧ call.stage.rank ≤ next.stage.rank

/-- The invariant of a run in which the given correlation ids have been used. -/
structure Paired (used : List Uuid) (run : ReportRun) : Prop where
  distinct : (run.world.calls.map ReportCall.id).Nodup
  known : ∀ call ∈ run.world.calls, call.id ∈ used
  ranks : ∀ world ∈ run.worlds, ∀ caller stage, world.stage? caller = some stage →
    ∃ call, run.world.calls[caller]? = some call ∧ stage.rank ≤ call.stage.rank
  justified : ∀ caller call, run.world.calls[caller]? = some call →
    Justified run.worlds run.world.log caller call
  waiters : ∀ waiter ∈ run.world.desk.waiters, ∃ (caller : Nat) (call : ReportCall),
    run.world.calls[caller]? = some call ∧ call.id = waiter.id ∧ call.user = waiter.user ∧
      4 ≤ call.stage.rank ∧ call.stage.rank ≤ 5
  mail : ∀ reply ∈ run.world.desk.mail, .handed reply ∈ run.world.log ∧
    Pending run.worlds run.world.calls reply
  messages : ∀ row ∈ run.world.store.messages, OwnRequest used run.world.calls row.message
  claimed : ∀ delivery ∈ run.world.claimed, OwnRequest used run.world.calls delivery.message
  replies : ∀ reply ∈ run.world.replies, Ready used run.worlds run.world.calls reply
  handed : ∀ reply, .handed reply ∈ run.world.log →
    (∃ (caller : Nat) (call : ReportCall), run.world.calls[caller]? = some call ∧
      call.id = reply.id ∧ 5 ≤ call.stage.rank) ∧
    ∀ waiter ∈ run.world.desk.waiters, waiter.id ≠ reply.id
  handedOnce : ((handedReplies run.world.log).map Reply.id).Nodup
  taken : ∀ caller reply, .taken caller reply ∈ run.world.log → .handed reply ∈ run.world.log ∧
    ∃ call, run.world.calls[caller]? = some call ∧ call.id = reply.id ∧ 6 ≤ call.stage.rank
  takenOnce : ((takenReplies run.world.log).map Prod.fst).Nodup

/-! ## Calls that go on -/

section Calls

variable {used used' : List Uuid} {calls after : List ReportCall} {call next : ReportCall}
  {caller other : Nat} {message : Message}

theorem Continues.refl (used : List Uuid) (calls : List ReportCall) :
    Continues used calls calls :=
  fun _ call found => Or.inr ⟨call, found, rfl, rfl, rfl, Nat.le_refl _⟩

theorem OwnRequest.mono (own : OwnRequest used calls message) (grows : ∀ id ∈ used, id ∈ used')
    (continues : Continues used calls after) : OwnRequest used' after message := by
  intro request read
  obtain ⟨known, belongs⟩ := own request read
  refine ⟨grows _ known, fun next member same => ?_⟩
  obtain ⟨caller, found⟩ := List.mem_iff_getElem?.1 member
  rcases continues caller next found with new | ⟨call, before, id, user, since, rank_le⟩
  · rw [same] at new
    exact absurd known new
  · obtain ⟨sent, ownUser, ownSince⟩ := belongs call (List.mem_of_getElem? before) (id.symm.trans same)
    exact ⟨Nat.le_trans sent rank_le, ownUser.trans user.symm, ownSince.trans (by rw [since])⟩

theorem Ready.mono {worlds : List ReportWorld} {reply : Reply} {world : ReportWorld}
    (ready : Ready used worlds calls reply) (grows : ∀ id ∈ used, id ∈ used')
    (continues : Continues used calls after) : Ready used' (world :: worlds) after reply := by
  obtain ⟨known, belongs⟩ := ready
  refine ⟨grows _ known, fun caller next found same => ?_⟩
  rcases continues caller next found with new | ⟨call, before, id, user, since, rank_le⟩
  · rw [same] at new
    exact absurd known new
  · obtain ⟨sent, read⟩ := belongs caller call before (id.symm.trans same)
    refine ⟨Nat.le_trans sent rank_le, fun waits => ?_⟩
    rw [user, since]
    exact (read (by omega)).mono

theorem Pending.mono {worlds : List ReportWorld} {reply : Reply} {world : ReportWorld}
    (pending : Pending worlds calls reply) : Pending (world :: worlds) calls reply := by
  obtain ⟨caller, call, found, same, rank, read⟩ := pending
  exact ⟨caller, call, found, same, rank, read.mono⟩

theorem caller_unique (distinct : (calls.map ReportCall.id).Nodup)
    (found : calls[caller]? = some call) (found' : calls[other]? = some next)
    (same : call.id = next.id) : caller = other := by
  have inside : caller < (calls.map ReportCall.id).length := by
    rw [List.length_map]
    exact (List.getElem?_eq_some_iff.1 found).1
  refine (List.getElem?_inj inside distinct).1 ?_
  rw [List.getElem?_map, List.getElem?_map, found, found']
  exact congrArg some same

/-- After one call has moved, it stands at its place, and the others stand where they stood. -/
theorem getElem?_move (found : calls[caller]? = some call) {moved : ReportCall} :
    (calls.set caller next)[other]? = some moved ↔
      (other = caller ∧ moved = next) ∨ (other ≠ caller ∧ calls[other]? = some moved) := by
  have inside := (List.getElem?_eq_some_iff.1 found).1
  by_cases same : other = caller
  · subst same
    rw [List.getElem?_set_self inside]
    simp [eq_comm]
  · rw [List.getElem?_set_ne (Ne.symm same)]
    simp [same]

/-- A call that begins stands behind the others. -/
theorem getElem?_begin {moved : ReportCall} :
    (calls ++ [next])[other]? = some moved ↔
      calls[other]? = some moved ∨ (other = calls.length ∧ moved = next) := by
  rcases Nat.lt_trichotomy other calls.length with inside | rfl | beyond
  · rw [List.getElem?_append_left inside]
    simp [Nat.ne_of_lt inside]
  · simp [eq_comm]
  · rw [List.getElem?_eq_none (by simp; omega), List.getElem?_eq_none (by omega)]
    simp [Nat.ne_of_gt beyond]

theorem continues_begin (fresh : next.id ∉ used) : Continues used calls (calls ++ [next]) := by
  intro other moved found
  rcases getElem?_begin.1 found with before | ⟨-, rfl⟩
  · exact Or.inr ⟨moved, before, rfl, rfl, rfl, Nat.le_refl _⟩
  · exact Or.inl fresh

theorem map_id_move (found : calls[caller]? = some call) (same : next.id = call.id) :
    (calls.set caller next).map ReportCall.id = calls.map ReportCall.id := by
  obtain ⟨inside, rfl⟩ := List.getElem?_eq_some_iff.1 found
  rw [List.map_set, same, ← List.getElem_map ReportCall.id (h := by simpa using inside)]
  exact List.set_getElem_self _

theorem continues_move (found : calls[caller]? = some call) {before desk : Desk}
    (move : ReportCall.Move call next before desk) :
    Continues used calls (calls.set caller next) := by
  intro other moved at_
  rcases (getElem?_move found).1 at_ with ⟨rfl, rfl⟩ | ⟨-, stays⟩
  · exact Or.inr ⟨call, found, move.id, move.user, move.since, move.rank_le⟩
  · exact Or.inr ⟨moved, stays, rfl, rfl, rfl, Nat.le_refl _⟩

theorem stage?_eq {world : ReportWorld} (found : world.calls[caller]? = some call) :
    world.stage? caller = some call.stage := by
  unfold ReportWorld.stage?
  rw [found]
  rfl

theorem stage?_eq_some {world : ReportWorld} {stage : CallStage}
    (h : world.stage? caller = some stage) :
    ∃ call, world.calls[caller]? = some call ∧ call.stage = stage :=
  Option.map_eq_some_iff.1 h

end Calls

/-! ## Actions that leave the calls alone -/

namespace Paired

variable {used used' : List Uuid} {run : ReportRun} {after : ReportWorld}

section Same

variable (paired : Paired used run) (calls : after.calls = run.world.calls)

include paired calls

theorem ranks_of_same : ∀ world ∈ after :: run.worlds, ∀ caller stage,
    world.stage? caller = some stage →
      ∃ call, after.calls[caller]? = some call ∧ stage.rank ≤ call.stage.rank := by
  intro world member caller stage at_
  rcases List.mem_cons.1 member with rfl | past
  · obtain ⟨call, found, rfl⟩ := stage?_eq_some at_
    exact ⟨call, found, Nat.le_refl _⟩
  · rw [calls]
    exact paired.ranks world past caller stage at_

theorem justified_of_same (kept : ∀ event ∈ run.world.log, event ∈ after.log) :
    ∀ caller call, after.calls[caller]? = some call →
      Justified (after :: run.worlds) after.log caller call := by
  intro caller call found
  have before := found
  rw [calls] at before
  exact (paired.justified caller call before).mono kept (stage?_eq found)

/-- Only the tables and the claimed deliveries have changed, and correlation ids have been used
elsewhere. -/
theorem of_tables (grows : ∀ id ∈ used, id ∈ used')
    (waiters : after.desk.waiters = run.world.desk.waiters)
    (mail : after.desk.mail = run.world.desk.mail) (replies : after.replies = run.world.replies)
    (log : after.log = run.world.log)
    (messages : ∀ row ∈ after.store.messages, OwnRequest used' run.world.calls row.message)
    (claimed : ∀ delivery ∈ after.claimed, OwnRequest used' run.world.calls delivery.message) :
    Paired used' { world := after, past := run.worlds } where
  distinct := by
    rw [calls]
    exact paired.distinct
  known := by
    rw [calls]
    exact fun call member => grows _ (paired.known call member)
  ranks := paired.ranks_of_same calls
  justified := paired.justified_of_same calls fun event member => log ▸ member
  waiters := by
    rw [calls, waiters]
    exact paired.waiters
  mail := by
    rw [calls, mail, log]
    exact fun reply member => ⟨(paired.mail reply member).1, (paired.mail reply member).2.mono⟩
  messages := by
    rw [calls]
    exact messages
  claimed := by
    rw [calls]
    exact claimed
  replies := by
    rw [calls, replies]
    exact fun reply member => (paired.replies reply member).mono grows (.refl used _)
  handed := by
    rw [calls, waiters, log]
    exact paired.handed
  handedOnce := by
    rw [log]
    exact paired.handedOnce
  taken := by
    rw [calls, log]
    exact paired.taken
  takenOnce := by
    rw [log]
    exact paired.takenOnce

end Same

/-- An action that has no effect. -/
theorem idle (paired : Paired used run) : Paired used { world := run.world, past := run.worlds } :=
  paired.of_tables rfl (fun _ member => member) rfl rfl rfl rfl paired.messages paired.claimed

/-! ## Writers, workers and other desks -/

section Others

variable (paired : Paired used run)

include paired

theorem ledger (limit : Int) (action : LedgerAction) (settings : ReportSettings) :
    Paired used (run.step settings limit (.ledger action)) := by
  refine paired.of_tables rfl (fun _ member => member) rfl rfl rfl rfl ?_ paired.claimed
  intro row member
  have same := LedgerRun.messages_step limit
    { books := run.world.desk.books, calls := run.world.writings } action
  have here : row ∈ run.world.store.messages := by
    rw [show run.world.store.messages = _ from same.symm]
    exact member
  exact paired.messages row here

theorem publishElsewhere {handle : QueueHandle} {request : ReportRequest} {now limit : Int}
    {settings : ReportSettings} (fresh : request.id ∉ used) :
    Paired (request.id :: used)
      (run.step settings limit (.publishElsewhere handle request now)) := by
  have grows (id : Uuid) (h : id ∈ used) : id ∈ request.id :: used := List.mem_cons_of_mem _ h
  have older (message : Message) (own : OwnRequest used run.world.calls message) :
      OwnRequest (request.id :: used) run.world.calls message :=
    own.mono grows (.refl used _)
  refine paired.of_tables rfl grows rfl rfl rfl rfl (fun row member => ?_)
    fun delivery member => older _ (paired.claimed delivery member)
  change row ∈ (handle.publish request now run.world.store).2.messages at member
  rcases handle.publish_eq request now run.world.store with ⟨-, sent⟩ | ⟨-, e, failed⟩
  · rw [sent] at member
    rcases List.mem_append.1 member with old | new
    · exact older _ (paired.messages row old)
    · -- Nobody has begun a call with the id of the new request.
      rw [List.mem_singleton.1 new]
      intro read decoded
      obtain ⟨same, -, -⟩ := Message.decode_encode_eq_ok decoded
      rw [same]
      refine ⟨List.mem_cons_self, fun call inCalls clash => ?_⟩
      exact absurd (clash ▸ paired.known call inCalls) fresh
  · rw [failed] at member
    exact older _ (paired.messages row member)

theorem claim {handle : QueueHandle} {now limit : Int} {settings : ReportSettings} :
    Paired used (run.step settings limit (.claim handle now)) := by
  unfold ReportRun.step
  by_cases reached : run.world.store.reaches [.requests] = true
  · rcases handle.claim_eq now reached with
      ⟨none, -⟩ | ⟨before, row, rest, split, -, -, claimed⟩
    · simp only [ReportWorld.step, none]
      exact paired.idle
    · have inQueue : row ∈ run.world.store.messages := by simp [split]
      have own := paired.messages row inQueue
      simp only [ReportWorld.step, claimed]
      refine paired.of_tables rfl (fun _ member => member) rfl rfl rfl rfl ?_ ?_
      · intro other member
        obtain ⟨old, inStore, rfl⟩ := List.mem_map.1 member
        split
        · exact own
        · exact paired.messages old inStore
      · intro delivery member
        rcases List.mem_append.1 member with old | new
        · exact paired.claimed delivery old
        · rw [List.mem_singleton.1 new]
          exact own
  · obtain ⟨e, failed⟩ := handle.claim_unreached now reached
    simp only [ReportWorld.step, failed]
    exact paired.idle

theorem settle {handle : QueueHandle} {receipt limit : Int} {settings : ReportSettings} :
    Paired used (run.step settings limit (.settle handle receipt)) := by
  unfold ReportRun.step
  rcases handle.acknowledge_eq receipt run.world.desk.books.store with done | ⟨e, failed⟩
  · have settled : Worker.settle handle receipt run.world.desk =
        { run.world.desk with books := { run.world.desk.books with
          store := run.world.desk.books.store.withoutHeld receipt handle.consumer } } := by
      simp only [Worker.settle, Books.withStore, done]
      rfl
    simp only [ReportWorld.step, settled]
    exact paired.of_tables rfl (fun _ member => member) rfl rfl rfl rfl
      (fun row member => paired.messages row (List.mem_filter.1 member).1) paired.claimed
  · have unsettled : Worker.settle handle receipt run.world.desk = run.world.desk := by
      simp only [Worker.settle, Books.withStore, failed]
      rfl
    simp only [ReportWorld.step, unsettled]
    exact paired.idle

end Others

/-! ## Replies -/

section Replies

variable (paired : Paired used run) {settings : ReportSettings} {limit : Int}

/-- What a worker has prepared are the rows of now, for the call of the request. -/
theorem ready_of_prepare {message : Message} {reply : Reply}
    (own : OwnRequest used run.world.calls message)
    (prepared : Worker.prepare run.world.store message = .ok reply) :
    Ready used run.worlds run.world.calls reply := by
  obtain ⟨request, rows, decoded, read, rfl⟩ := Worker.prepare_eq_ok.1 prepared
  obtain ⟨known, belongs⟩ := own request decoded
  refine ⟨known, fun caller call found same => ?_⟩
  obtain ⟨sent, user, since⟩ := belongs call (List.mem_of_getElem? found) same
  refine ⟨sent, fun waits => ?_⟩
  refine ⟨run.world, List.mem_cons_self,
    ⟨call.stage, stage?_eq found, CallStage.isWaiting_iff.2 waits⟩, ?_⟩
  unfold Store.expensesSince at read ⊢
  rw [← user, ← since]
  exact read

include paired

theorem prepare {index : Nat} : Paired used (run.step settings limit (.prepare index)) := by
  unfold ReportRun.step
  cases found : run.world.claimed[index]? with
  | none =>
    simp only [ReportWorld.step, found]
    exact paired.idle
  | some delivery =>
    cases prepared : Worker.prepare run.world.store delivery.message with
    | error handling =>
      simp only [ReportWorld.step, found, prepared]
      exact paired.idle
    | ok reply =>
      simp only [ReportWorld.step, found, prepared]
      have own := paired.claimed delivery (List.mem_of_getElem? found)
      have idle := paired.idle
      exact {
        distinct := idle.distinct
        known := idle.known
        ranks := paired.ranks_of_same rfl
        justified := paired.justified_of_same rfl fun _ member => member
        waiters := idle.waiters
        mail := fun other member =>
          ⟨(paired.mail other member).1, (paired.mail other member).2.mono⟩
        messages := idle.messages
        claimed := idle.claimed
        replies := by
          intro other member
          have ready : Ready used run.worlds run.world.calls other := by
            rcases List.mem_append.1 member with old | new
            · exact paired.replies other old
            · rw [List.mem_singleton.1 new]
              exact ready_of_prepare own prepared
          exact ready.mono (fun _ member => member) (.refl used _)
        handed := idle.handed
        handedOnce := idle.handedOnce
        taken := idle.taken
        takenOnce := idle.takenOnce }

omit paired in
/-- The desk takes a reply in for whoever waits for it, or throws it away. -/
theorem deliver_eq (desk : Desk) (reply : Reply) :
    (∃ waiter ∈ desk.waiters, waiter.id = reply.id ∧ waiter.user = reply.user ∧
      desk.deliver reply = (.delivered, { desk with
        waiters := desk.waiters.filter fun waiter => waiter.id ≠ reply.id
        mail := desk.mail ++ [reply] })) ∨
    desk.deliver reply = (.noWaiter, desk) := by
  cases found : desk.waiter? reply.id with
  | none =>
    right
    simp only [Desk.deliver, found]
  | some waiter =>
    by_cases same : waiter.user = reply.user
    · left
      have id : waiter.id = reply.id := by simpa using List.find?_some found
      refine ⟨waiter, List.mem_of_find?_eq_some found, id, same, ?_⟩
      simp only [Desk.deliver, found, same, if_true]
    · right
      simp only [Desk.deliver, found, same, if_false]

theorem arrive {reply : Reply} (ready : reply ∈ run.world.replies) :
    Paired used { world := run.world.arrive reply, past := run.worlds } := by
  rcases deliver_eq run.world.desk reply with ⟨waiter, waits, sameId, -, taken⟩ | refused
  · obtain ⟨caller, call, found, callId, -, -, low⟩ := paired.waiters waiter waits
    obtain ⟨-, belongs⟩ := paired.replies reply ready
    obtain ⟨sent, read⟩ := belongs caller call found (callId.trans sameId)
    have rank : call.stage.rank = 5 := Nat.le_antisymm low sent
    have idle := paired.idle
    simp only [ReportWorld.arrive, taken, if_true]
    exact {
      distinct := idle.distinct
      known := idle.known
      ranks := paired.ranks_of_same rfl
      justified := paired.justified_of_same rfl fun _ member => List.mem_cons_of_mem _ member
      waiters := fun other member => paired.waiters other (List.mem_filter.1 member).1
      mail := by
        intro other member
        rcases List.mem_append.1 member with old | new
        · obtain ⟨handed, pending⟩ := paired.mail other old
          exact ⟨List.mem_cons_of_mem _ handed, pending.mono⟩
        · rw [List.mem_singleton.1 new]
          exact ⟨List.mem_cons_self, caller, call, found, callId.trans sameId, rank,
            (read rank).mono⟩
      messages := idle.messages
      claimed := idle.claimed
      replies := fun other member =>
        (paired.replies other member).mono (fun _ member => member) (.refl used _)
      handed := by
        intro other member
        rcases List.mem_cons.1 member with now | before
        · cases now
          refine ⟨⟨caller, call, found, callId.trans sameId, sent⟩, fun waiter member => ?_⟩
          exact of_decide_eq_true (List.mem_filter.1 member).2
        · obtain ⟨owner, absent⟩ := paired.handed other before
          exact ⟨owner, fun waiter member => absent waiter (List.mem_filter.1 member).1⟩
      handedOnce := by
        refine List.nodup_cons.2 ⟨fun again => ?_, paired.handedOnce⟩
        obtain ⟨other, member, same⟩ := List.mem_map.1 again
        have absent := (paired.handed other (mem_handedReplies.1 member)).2 waiter waits
        exact absent (sameId.trans same.symm)
      taken := by
        intro caller other member
        rcases List.mem_cons.1 member with now | before
        · cases now
        · obtain ⟨handed, rest⟩ := paired.taken caller other before
          exact ⟨List.mem_cons_of_mem _ handed, rest⟩
      takenOnce := paired.takenOnce }
  · simp only [ReportWorld.arrive, refused]
    exact paired.idle

theorem deliver {index : Nat} : Paired used (run.step settings limit (.deliver index)) := by
  unfold ReportRun.step
  cases found : run.world.replies[index]? with
  | none =>
    simp only [ReportWorld.step, found]
    exact paired.idle
  | some reply =>
    simp only [ReportWorld.step, found]
    exact paired.arrive (List.mem_of_getElem? found)

/-- A reply that nobody expects is thrown away. -/
theorem deliverStray {reply : Reply} :
    Paired used (run.step settings limit (.deliverStray reply)) := by
  unfold ReportRun.step
  cases expected : run.world.expects reply with
  | true =>
    simp only [ReportWorld.step, expected, if_true]
    exact paired.idle
  | false =>
    rcases deliver_eq run.world.desk reply with ⟨waiter, waits, sameId, user, -⟩ | refused
    · have wanted : run.world.expects reply = true :=
        List.any_eq_true.2 ⟨waiter, waits, decide_eq_true ⟨sameId, user⟩⟩
      rw [expected] at wanted
      cases wanted
    · simp only [ReportWorld.step, expected, Bool.false_eq_true, if_false, ReportWorld.arrive,
        refused]
      exact paired.idle

end Replies

end Paired
end ExpenseLedger
