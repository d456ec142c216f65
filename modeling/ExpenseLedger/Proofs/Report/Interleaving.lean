import ExpenseLedger.Proofs.Report.Pairing
import Mathlib.Data.List.Induction

/-!
# Reports under interleaving

Whatever else happens around a report call, the report that it returns after a worker's answer is
the aggregate of one reply at the rate that it has read at its start, and the rows of the reply were
those of its user and window at some time between its publishing and its return. No reply is handed
over twice, and no call takes two.
-/

namespace ExpenseLedger
namespace Paired

variable {used : List Uuid} {run : ReportRun}

/-! ## Calls -/

section Calls

variable (paired : Paired used run) {settings : ReportSettings} {limit : Int}

include paired

theorem begin {id : Uuid} {user : Int} {since : Instant} (fresh : id ∉ used) :
    Paired (id :: used) (run.step settings limit (.begin id user since)) := by
  let begun : ReportCall := { id, user, since }
  have old {caller : Nat} {call : ReportCall} (found : run.world.calls[caller]? = some call) :
      (run.world.calls ++ [begun])[caller]? = some call := getElem?_begin.2 (Or.inl found)
  have continues : Continues used run.world.calls (run.world.calls ++ [begun]) :=
    continues_begin fresh
  have grows (other : Uuid) (h : other ∈ used) : other ∈ id :: used := List.mem_cons_of_mem _ h
  exact {
    distinct := by
      show ((run.world.calls ++ [begun]).map ReportCall.id).Nodup
      rw [List.map_append]
      apply List.Nodup.append paired.distinct (List.nodup_singleton _)
      intro other inCalls new
      obtain ⟨call, member, rfl⟩ := List.mem_map.1 inCalls
      have clash : call.id = id := List.mem_singleton.1 new
      exact fresh (clash ▸ paired.known call member)
    known := by
      intro call member
      rcases List.mem_append.1 member with before | new
      · exact grows _ (paired.known call before)
      · rw [List.mem_singleton.1 new]
        exact List.mem_cons_self
    ranks := by
      intro world member caller stage at_
      rcases List.mem_cons.1 member with rfl | past
      · obtain ⟨call, found, rfl⟩ := stage?_eq_some at_
        exact ⟨call, found, Nat.le_refl _⟩
      · obtain ⟨call, found, rank_le⟩ := paired.ranks world past caller stage at_
        exact ⟨call, old found, rank_le⟩
    justified := by
      intro caller call found
      rcases getElem?_begin.1 found with before | ⟨-, rfl⟩
      · exact (paired.justified caller call before).mono (fun _ member => member)
          (stage?_eq found)
      · trivial
    waiters := by
      intro waiter member
      obtain ⟨caller, call, found, rest⟩ := paired.waiters waiter member
      exact ⟨caller, call, old found, rest⟩
    mail := by
      intro reply member
      obtain ⟨handed, caller, call, found, same, rank, read⟩ := paired.mail reply member
      exact ⟨handed, caller, call, old found, same, rank, read.mono⟩
    messages := fun row member => (paired.messages row member).mono grows continues
    claimed := fun delivery member => (paired.claimed delivery member).mono grows continues
    replies := fun reply member => (paired.replies reply member).mono grows continues
    handed := by
      intro reply member
      obtain ⟨⟨caller, call, found, rest⟩, absent⟩ := paired.handed reply member
      exact ⟨⟨caller, call, old found, rest⟩, absent⟩
    handedOnce := paired.handedOnce
    taken := by
      intro caller reply member
      obtain ⟨handed, call, found, rest⟩ := paired.taken caller reply member
      exact ⟨handed, call, old found, rest⟩
    takenOnce := paired.takenOnce }

section Move

variable {caller : Nat} {call next : ReportCall} {desk : Desk}
  (found : run.world.calls[caller]? = some call)
  (moves : ReportCall.Move call next run.world.desk desk)

include found moves

omit paired in
/-- Wherever a call stood, one of the same id stands, no less far. -/
theorem onward_of_move {other : Nat} {old : ReportCall}
    (before : run.world.calls[other]? = some old) :
    ∃ moved, (run.world.calls.set caller next)[other]? = some moved ∧ moved.id = old.id ∧
      old.stage.rank ≤ moved.stage.rank := by
  by_cases same : other = caller
  · subst same
    rw [found] at before
    cases before
    exact ⟨next, (getElem?_move found).2 (Or.inl ⟨rfl, rfl⟩), moves.id, moves.rank_le⟩
  · exact ⟨old, (getElem?_move found).2 (Or.inr ⟨same, before⟩), rfl, Nat.le_refl _⟩

theorem known_of_move : ∀ moved ∈ run.world.calls.set caller next, moved.id ∈ used := by
  intro moved member
  rcases List.mem_or_eq_of_mem_set member with before | rfl
  · exact paired.known moved before
  · rw [moves.id]
    exact paired.known call (List.mem_of_getElem? found)

theorem waiters_of_move : ∀ waiter ∈ desk.waiters, ∃ (other : Nat) (moved : ReportCall),
    (run.world.calls.set caller next)[other]? = some moved ∧ moved.id = waiter.id ∧
      moved.user = waiter.user ∧ 4 ≤ moved.stage.rank ∧ moved.stage.rank ≤ 5 := by
  intro waiter member
  have here : (run.world.calls.set caller next)[caller]? = some next :=
    (getElem?_move found).2 (Or.inl ⟨rfl, rfl⟩)
  rcases moves.waiters waiter member with ⟨before, stays⟩ | ⟨rfl, -, rank⟩
  · obtain ⟨other, old, oldFound, same, user, low, high⟩ := paired.waiters waiter before
    by_cases apart : other = caller
    · subst apart
      rw [found] at oldFound
      cases oldFound
      exact ⟨other, next, here, moves.id.trans same, moves.user.trans user,
        Nat.le_trans low moves.rank_le, stays same.symm low high⟩
    · exact ⟨other, old, (getElem?_move found).2 (Or.inr ⟨apart, oldFound⟩), same, user, low,
        high⟩
  · exact ⟨caller, next, here, moves.id, moves.user, by omega, by omega⟩

theorem mail_of_move (after : ReportWorld) : ∀ reply ∈ desk.mail, .handed reply ∈ run.world.log ∧
    Pending (after :: run.worlds) (run.world.calls.set caller next) reply := by
  intro reply member
  obtain ⟨before, stays⟩ := moves.mail reply member
  obtain ⟨handed, other, old, oldFound, same, rank, read⟩ := paired.mail reply before
  refine ⟨handed, ?_⟩
  by_cases apart : other = caller
  · subst apart
    rw [found] at oldFound
    cases oldFound
    refine ⟨other, next, (getElem?_move found).2 (Or.inl ⟨rfl, rfl⟩), moves.id.trans same,
      stays same.symm rank, ?_⟩
    rw [moves.user, moves.since]
    exact read.mono
  · exact ⟨other, old, (getElem?_move found).2 (Or.inr ⟨apart, oldFound⟩), same, rank, read.mono⟩

theorem messages_of_move : ∀ row ∈ desk.books.store.messages,
    OwnRequest used (run.world.calls.set caller next) row.message := by
  intro row member
  rcases moves.messages row member with before | ⟨own, sent⟩
  · exact (paired.messages row before).mono (fun _ member => member) (continues_move found moves)
  · -- The request of the call itself; no other call has its id.
    rw [own]
    intro request decoded
    obtain ⟨id, user, since⟩ := Message.decode_encode_eq_ok decoded
    have known := paired.known call (List.mem_of_getElem? found)
    refine ⟨by rw [id]; exact known, fun moved inCalls same => ?_⟩
    obtain ⟨other, found'⟩ := List.mem_iff_getElem?.1 inCalls
    rcases (getElem?_move found).1 found' with ⟨rfl, rfl⟩ | ⟨apart, before⟩
    · refine ⟨sent, user.trans moves.user.symm, since.trans ?_⟩
      rw [moves.since]
      rfl
    · exact absurd (caller_unique paired.distinct before found (same.trans id)) apart

/-- Nobody begins to wait for a reply that has been handed over. -/
theorem handed_of_move {reply : Reply} (handed : .handed reply ∈ run.world.log) :
    (∃ (other : Nat) (moved : ReportCall),
      (run.world.calls.set caller next)[other]? = some moved ∧ moved.id = reply.id ∧
        5 ≤ moved.stage.rank) ∧
      ∀ waiter ∈ desk.waiters, waiter.id ≠ reply.id := by
  obtain ⟨⟨other, old, oldFound, same, sent⟩, absent⟩ := paired.handed reply handed
  obtain ⟨moved, found', same', rank_le⟩ := onward_of_move found moves oldFound
  refine ⟨⟨other, moved, found', same'.trans same, Nat.le_trans sent rank_le⟩, ?_⟩
  intro waiter member
  rcases moves.waiters waiter member with ⟨waited, -⟩ | ⟨rfl, unsent, -⟩
  · exact absent waiter waited
  · -- A call that begins to wait has not published yet.
    intro clash
    obtain rfl := caller_unique paired.distinct found oldFound (clash.trans same.symm)
    rw [found] at oldFound
    cases oldFound
    omega

/-- A reply that was taken was handed over, to a call that has gone beyond waiting. -/
theorem taken_of_move {other : Nat} {reply : Reply} (taken : .taken other reply ∈ run.world.log) :
    .handed reply ∈ run.world.log ∧
      ∃ moved, (run.world.calls.set caller next)[other]? = some moved ∧ moved.id = reply.id ∧
        6 ≤ moved.stage.rank := by
  obtain ⟨handed, old, before, same, rank⟩ := paired.taken other reply taken
  obtain ⟨moved, found', same', rank_le⟩ := onward_of_move found moves before
  exact ⟨handed, moved, found', same'.trans same, Nat.le_trans rank rank_le⟩

/-- A call moves, and may take a reply that it has in its mail. -/
theorem move {took : Option Reply}
    (takes : ∀ reply, took = some reply → reply ∈ run.world.desk.mail ∧ reply.id = call.id ∧
      call.stage.rank = 5 ∧ next.stage.rank = 6)
    (justified : Justified
      (run.world.move caller (next, desk) took :: run.worlds)
      (took.toList.map (.taken caller) ++ run.world.log) caller next) :
    Paired used
      { world := run.world.move caller (next, desk) took
        past := run.worlds } where
  distinct := by
    show ((run.world.calls.set caller next).map ReportCall.id).Nodup
    rw [map_id_move found moves.id]
    exact paired.distinct
  known := paired.known_of_move found moves
  ranks := by
    intro world member other stage at_
    rcases List.mem_cons.1 member with rfl | past
    · obtain ⟨moved, found', rfl⟩ := stage?_eq_some at_
      exact ⟨moved, found', Nat.le_refl _⟩
    · obtain ⟨old, before, rank_le⟩ := paired.ranks world past other stage at_
      obtain ⟨moved, found', -, rank_le'⟩ := onward_of_move found moves before
      exact ⟨moved, found', Nat.le_trans rank_le rank_le'⟩
  justified := by
    intro other moved found'
    rcases (getElem?_move found).1 found' with ⟨rfl, rfl⟩ | ⟨apart, before⟩
    · exact justified
    · exact (paired.justified other moved before).mono
        (fun _ member => List.mem_append_right _ member) (stage?_eq found')
  waiters := paired.waiters_of_move found moves
  mail := by
    intro reply member
    obtain ⟨handed, pending⟩ := paired.mail_of_move found moves _ reply member
    exact ⟨List.mem_append_right _ handed, pending⟩
  messages := paired.messages_of_move found moves
  claimed := fun delivery member =>
    (paired.claimed delivery member).mono (fun _ member => member) (continues_move found moves)
  replies := fun reply member =>
    (paired.replies reply member).mono (fun _ member => member) (continues_move found moves)
  handed := by
    intro reply member
    rcases List.mem_append.1 member with new | old
    · obtain ⟨other, -, impossible⟩ := List.mem_map.1 new
      cases impossible
    · exact paired.handed_of_move found moves old
  handedOnce := by
    have same : handedReplies (took.toList.map (.taken caller) ++ run.world.log) =
        handedReplies run.world.log := by
      cases took <;> rfl
    show ((handedReplies (took.toList.map (.taken caller) ++ run.world.log)).map Reply.id).Nodup
    rw [same]
    exact paired.handedOnce
  taken := by
    intro other reply member
    rcases List.mem_append.1 member with new | old
    · obtain ⟨taken, isTaken, same⟩ := List.mem_map.1 new
      cases same
      obtain ⟨inMail, id, -, rank⟩ := takes reply (Option.mem_toList.1 isTaken)
      exact ⟨List.mem_append_right _ (paired.mail reply inMail).1, next,
        (getElem?_move found).2 (Or.inl ⟨rfl, rfl⟩), moves.id.trans id.symm, by omega⟩
    · obtain ⟨handed, rest⟩ := paired.taken_of_move found moves old
      exact ⟨List.mem_append_right _ handed, rest⟩
  takenOnce := by
    show ((takenReplies (took.toList.map (.taken caller) ++ run.world.log)).map Prod.fst).Nodup
    cases took with
    | none => exact paired.takenOnce
    | some reply =>
      refine List.nodup_cons.2 ⟨fun again => ?_, paired.takenOnce⟩
      obtain ⟨⟨other, earlier⟩, member, same⟩ := List.mem_map.1 again
      obtain rfl : other = caller := same
      obtain ⟨-, old, before, -, rank⟩ := paired.taken other earlier (mem_takenReplies.1 member)
      rw [found] at before
      cases before
      have := (takes reply rfl).2.2.1
      omega

end Move

omit paired in
theorem taking?_eq_some {call next : ReportCall} {desk : Desk} {reply : Reply}
    (h : ReportWorld.taking? call next desk = some reply) :
    reply ∈ desk.mail ∧ reply.id = call.id ∧ call.stage.rank = 5 ∧ next.stage.rank = 6 := by
  unfold ReportWorld.taking? at h
  split at h
  · next waits answers =>
    rw [waits, answers]
    exact ⟨List.mem_of_find?_eq_some h, by simpa using List.find?_some h, rfl, rfl⟩
  · cases h

omit paired in
theorem taking?_of_rank {call next : ReportCall} {desk : Desk} (waits : call.stage.IsWaiting)
    (rank : next.stage.rank = 6) : ReportWorld.taking? call next desk = desk.mailFor? call.id := by
  obtain ⟨rate, deadline, stage⟩ := waits
  unfold ReportWorld.taking?
  rw [stage]
  cases answers : next.stage with
  | answered rate rows => rfl
  | _ =>
    rw [answers] at rank
    cases rank

theorem of_effect {caller : Nat} {call : ReportCall} {now : Int} {stage : CallStage} {desk : Desk}
    (found : run.world.calls[caller]? = some call)
    (effect : ReportCall.Effect call now run.world.desk call.stage stage desk) :
    Paired used
      { world := run.world.move caller (call.toStage stage, desk)
          (ReportWorld.taking? call (call.toStage stage) run.world.desk)
        past := run.worlds } := by
  refine paired.move found effect.move (fun reply took => taking?_eq_some took) ?_
  refine effect.justified (paired.justified caller call found)
    (fun _ member => List.mem_append_right _ member) List.mem_cons_self (stage?_eq found) ?_ ?_ ?_
  · intro other member earlier at_
    obtain ⟨call', found', rank_le⟩ := paired.ranks other member caller earlier at_
    rw [found] at found'
    cases found'
    exact rank_le
  · intro reply waits mail rank
    constructor
    · rw [taking?_of_rank waits rank, mail]
      exact List.mem_cons_self
    · have inMail : reply ∈ run.world.desk.mail := List.mem_of_find?_eq_some mail
      have sameId : reply.id = call.id := by simpa using List.find?_some mail
      obtain ⟨-, other, call', found', same, -, read⟩ := paired.mail reply inMail
      obtain rfl := caller_unique paired.distinct found' found (same.trans sameId)
      rw [found] at found'
      cases found'
      exact read
  · have here : (run.world.calls.set caller (call.toStage stage))[caller]? =
        some (call.toStage stage) := (getElem?_move found).2 (Or.inl ⟨rfl, rfl⟩)
    unfold ReportWorld.stage? ReportWorld.move
    rw [here]
    rfl

theorem proceed {caller : Nat} {now : Int} :
    Paired used (run.step settings limit (.proceed caller now)) := by
  unfold ReportRun.step
  cases found : run.world.calls[caller]? with
  | none =>
    simp only [ReportWorld.step, found]
    exact paired.idle
  | some call =>
    obtain ⟨stage, desk, stepped, effect⟩ :=
      ReportCall.step_effect settings now call run.world.desk
    simp only [ReportWorld.step, found, stepped]
    exact paired.of_effect found effect

theorem cancel {caller : Nat} : Paired used (run.step settings limit (.cancel caller)) := by
  unfold ReportRun.step
  cases found : run.world.calls[caller]? with
  | none =>
    simp only [ReportWorld.step, found]
    exact paired.idle
  | some call =>
    simp only [ReportWorld.step, found]
    rcases ReportCall.cancel_effect 0 call run.world.desk with
      stays | ⟨e, cancelled, effect⟩
    · rw [stays]
      have here : (run.world.move caller (call, run.world.desk) none).calls[caller]? = some call :=
        (getElem?_move found).2 (Or.inl ⟨rfl, rfl⟩)
      refine paired.move found (.refl _ _) (fun _ impossible => by cases impossible) ?_
      exact (paired.justified caller call found).mono (fun _ member => member) (stage?_eq here)
    · rw [cancelled]
      have untaken : ReportWorld.taking? call (call.toStage (.finished (.error e)))
          run.world.desk = none := by
        unfold ReportWorld.taking? ReportCall.toStage
        cases call.stage <;> rfl
      rw [← untaken]
      exact paired.of_effect found effect

end Calls

/-- Every action keeps the invariant, if the correlation id that it brings has not been used. -/
theorem step (paired : Paired used run) (settings : ReportSettings) (limit : Int)
    (action : ReportAction) (fresh : ∀ id, action.newId? = some id → id ∉ used) :
    Paired (action.newId?.toList ++ used) (run.step settings limit action) := by
  cases action with
  | begin id user since => exact paired.begin (fresh id rfl)
  | proceed caller now => exact paired.proceed
  | cancel caller => exact paired.cancel
  | ledger action => exact paired.ledger limit action settings
  | publishElsewhere handle request now => exact paired.publishElsewhere (fresh request.id rfl)
  | claim handle now => exact paired.claim
  | prepare delivery => exact paired.prepare
  | deliver reply => exact paired.deliver
  | deliverStray reply => exact paired.deliverStray
  | settle handle receipt => exact paired.settle

/-- Before the first action, when nobody waits and the correlation ids of what is in the queue count
as used. -/
theorem start {desk : Desk} {used : List Uuid}
    (queued : ∀ row ∈ desk.books.store.messages, OwnRequest used [] row.message)
    (noWaiters : desk.waiters = []) (noMail : desk.mail = []) :
    Paired used { world := { desk } } where
  distinct := List.nodup_nil
  known := by
    intro call member
    cases member
  ranks := by
    intro world member caller stage at_
    obtain ⟨call, found, -⟩ := stage?_eq_some at_
    rw [List.mem_singleton.1 member] at found
    cases found
  justified := by
    intro caller call found
    cases found
  waiters := by
    intro waiter member
    have none : waiter ∈ desk.waiters := member
    rw [noWaiters] at none
    cases none
  mail := by
    intro reply member
    have none : reply ∈ desk.mail := member
    rw [noMail] at none
    cases none
  messages := queued
  claimed := by
    intro delivery member
    cases member
  replies := by
    intro reply member
    cases member
  handed := by
    intro reply member
    cases member
  handedOnce := List.nodup_nil
  taken := by
    intro caller reply member
    cases member
  takenOnce := List.nodup_nil

/-- The invariant holds after every run that brings no correlation id twice, and none of what was
in the queue before. -/
theorem ofActions_over (settings : ReportSettings) (limit : Int) {desk : Desk} {old : List Uuid}
    (queued : ∀ row ∈ desk.books.store.messages, OwnRequest old [] row.message)
    (noWaiters : desk.waiters = []) (noMail : desk.mail = []) {actions : List ReportAction}
    (distinct : (actions.filterMap ReportAction.newId?).Nodup)
    (apart : ∀ id ∈ actions.filterMap ReportAction.newId?, id ∉ old) :
    ∃ used, Paired used (ReportRun.ofActions settings limit desk actions) ∧
      ∀ id ∈ used, id ∈ old ∨ id ∈ actions.filterMap ReportAction.newId? := by
  induction actions using List.reverseRecOn with
  | nil => exact ⟨old, start queued noWaiters noMail, fun _ member => Or.inl member⟩
  | append_singleton actions action ih =>
    rw [List.filterMap_append] at distinct apart ⊢
    obtain ⟨before, -, different⟩ := List.nodup_append.1 distinct
    obtain ⟨used, paired, known⟩ := ih before fun id member =>
      apart id (List.mem_append_left _ member)
    have last : [action].filterMap ReportAction.newId? = action.newId?.toList := by
      cases new : action.newId? <;> simp [new]
    have fresh (id : Uuid) (new : action.newId? = some id) : id ∉ used := by
      intro again
      have inLast : id ∈ [action].filterMap ReportAction.newId? := by
        rw [last, new]
        exact List.mem_singleton_self id
      rcases known id again with queued | earlier
      · exact apart id (List.mem_append_right _ inLast) queued
      · exact different id earlier id inLast rfl
    refine ⟨action.newId?.toList ++ used, ?_, fun id member => ?_⟩
    · have next := paired.step settings limit action fresh
      unfold ReportRun.ofActions at next ⊢
      rw [List.foldl_append]
      exact next
    · rw [last]
      rcases List.mem_append.1 member with new | old
      · exact Or.inr (List.mem_append_right _ new)
      · exact (known id old).imp_right fun earlier => List.mem_append_left _ earlier

/-- The invariant from an empty queue on. -/
theorem ofActions (settings : ReportSettings) (limit : Int) {desk : Desk}
    (noMessages : desk.books.store.messages = []) (noWaiters : desk.waiters = [])
    (noMail : desk.mail = []) {actions : List ReportAction}
    (distinct : (actions.filterMap ReportAction.newId?).Nodup) :
    ∃ used, Paired used (ReportRun.ofActions settings limit desk actions) := by
  have queued : ∀ row ∈ desk.books.store.messages, OwnRequest [] [] row.message := by
    intro row member
    rw [noMessages] at member
    cases member
  obtain ⟨used, paired, -⟩ := ofActions_over settings limit queued noWaiters noMail distinct
    fun _ _ => List.not_mem_nil
  exact ⟨used, paired⟩

end Paired

/-! ## What a call returns -/

/-- Whatever interleaves with a report call, a report that it returns was in the cache when it
began and never waited, or else it has taken the rows of a reply: rows that the tables held for its
user and window while it was waiting, that is between publishing and returning, and the report is
their aggregate at the rate that it had read before. Replies with one id are taken in once, no two
calls take replies with one id, and a call takes one reply at most. -/
theorem reports_paired (settings : ReportSettings) (limit : Int) {desk : Desk}
    (noMessages : desk.books.store.messages = []) (noWaiters : desk.waiters = [])
    (noMail : desk.mail = []) {actions : List ReportAction}
    (distinct : (actions.filterMap ReportAction.newId?).Nodup) :
    let run := ReportRun.ofActions settings limit desk actions
    (∀ (caller : Nat) (call : ReportCall) (report : Report),
      run.world.calls[caller]? = some call → call.stage = .finished (.ok report) →
        Cached run.worlds caller call report ∨
          ∃ rate reply, Rated run.worlds caller call.user rate ∧
            .taken caller reply ∈ run.world.log ∧
            ReadWhileWaiting run.worlds caller call.user call.since reply.expenses ∧
            Report.aggregate reply.expenses rate = .ok report) ∧
    ((handedReplies run.world.log).map Reply.id).Nodup ∧
    ((takenReplies run.world.log).map Prod.fst).Nodup ∧
    (∀ (caller : Nat) (reply : Reply), .taken caller reply ∈ run.world.log →
      .handed reply ∈ run.world.log ∧
        ∃ call, run.world.calls[caller]? = some call ∧ call.id = reply.id) ∧
    ∀ (caller other : Nat) (reply reply' : Reply), .taken caller reply ∈ run.world.log →
      .taken other reply' ∈ run.world.log → reply.id = reply'.id → caller = other := by
  intro run
  obtain ⟨used, paired⟩ := Paired.ofActions settings limit noMessages noWaiters noMail distinct
  refine ⟨?_, paired.handedOnce, paired.takenOnce, ?_, ?_⟩
  · intro caller call report found returned
    have justified := paired.justified caller call found
    unfold Justified at justified
    rw [returned] at justified
    rcases justified with cached | ⟨rate, rows, rated, ⟨reply, taken, rfl, read⟩, sums⟩
    · exact Or.inl cached
    · exact Or.inr ⟨rate, reply, rated, taken, read, sums⟩
  · intro caller reply taken
    obtain ⟨handed, call, found, same, -⟩ := paired.taken caller reply taken
    exact ⟨handed, call, found, same⟩
  · intro caller other reply reply' taken taken' same
    obtain ⟨-, call, found, id, -⟩ := paired.taken caller reply taken
    obtain ⟨-, call', found', id', -⟩ := paired.taken other reply' taken'
    exact caller_unique paired.distinct found found' (id.trans (same.trans id'.symm))

/-- A desk at which nobody waits. -/
def newDesk : Desk :=
  { books := newBooks }

/-- The settings of a desk that publishes to the shared queue. -/
def sharedSettings : ReportSettings :=
  { publisher := .queue { consumer := 1 } }

/-- A user writes one expense and asks for a report; the reply comes twice, and before it one for
another user. -/
def oneReport : List ReportAction :=
  let id : Uuid := { value := 7 }
  let request : ExpenseRequest :=
    { user := 1, category := "food", amount := ⟨60⟩, time := .epoch }
  [.ledger (.perform (.addUser 1)), .ledger (.perform (.addCategory 1 "food")),
    .ledger (.begin request .epoch)] ++ List.replicate 5 (.ledger (.proceed 0)) ++
    [.begin id 1 .epoch] ++ List.replicate 5 (.proceed 0 0) ++
    [.claim { consumer := 2 } 1, .prepare 0, .deliverStray { id, user := 2, expenses := [] },
      .deliver 0, .deliver 0, .settle { consumer := 2 } 1] ++ List.replicate 3 (.proceed 0 2)

theorem oneReport_paired :
    newDesk.books.store.messages = [] ∧ newDesk.waiters = [] ∧ newDesk.mail = [] ∧
      (oneReport.filterMap ReportAction.newId?).Nodup ∧
      let run := ReportRun.ofActions sharedSettings 100 newDesk oneReport
      (handedReplies run.world.log).length = 1 ∧
      (run.world.calls.map fun call => call.result?.map fun result =>
        result.toOption.map Report.entries) = [some (some [("food", 60)])] ∧
      ∀ (caller : Nat) (reply : Reply), .taken caller reply ∈ run.world.log →
        .handed reply ∈ run.world.log ∧
          ∃ call, run.world.calls[caller]? = some call ∧ call.id = reply.id :=
  ⟨rfl, rfl, rfl, by decide, by decide +kernel, by decide +kernel,
    (reports_paired sharedSettings 100 rfl rfl rfl (by decide)).2.2.2.1⟩

end ExpenseLedger
