import ExpenseLedger.Proofs.Report.Effects
import ExpenseLedger.Proofs.Report.Waiters

/-!
# Reports that fail

A call that fails has changed no entry of the cache that is still of use, nobody waits under its id
afterwards, and if it failed before it had a rate, nothing of it has gone out. So whoever asks again
misses the cache, unless some other call has filled it, and sends one request.
-/

namespace ExpenseLedger

/-- No entry of the key is still of use. -/
def Books.Lacks (books : Books) (now : Int) (key : String) : Prop :=
  ∀ entry ∈ books.entries, entry.key = key → entry.expiresAt ≤ now

/-- Whether a request can go out depends on the tables alone. -/
theorem Desk.publish_of_same {desk after : Desk} {publisher : Publisher} {now : Int}
    {request : ReportRequest} (same : after.books.store = desk.books.store) :
    (after.publish publisher now request).1 = (desk.publish publisher now request).1 := by
  cases publisher with
  | outbox => rfl
  | broken fault => rfl
  | queue handle =>
    unfold publish
    dsimp only
    rw [same]
    rcases handle.publish_eq request now desk.books.store with ⟨-, sent⟩ | ⟨-, e, failed⟩
    · rw [sent]
    · rw [failed]

namespace ReportCall

variable {settings : ReportSettings} {now : Int} {call : ReportCall} {desk : Desk}

/-- The key under which the report of the call is cached. -/
def key (call : ReportCall) : String :=
  CacheKey.key call.user call.since

/-! ## The ways to fail -/

/-- The ways in which a step of a call ends it with an error. -/
inductive Fails (settings : ReportSettings) (now : Int) (call : ReportCall) (desk : Desk) :
    Error → Prop
  | userRead (stage : call.stage = .missed) (e : Error)
      (unknown : desk.books.store.user call.user = .error e) : Fails settings now call desk e
  | rateRead (currency : Int) (stage : call.stage = .userRead currency) (e : Error)
      (unusable : desk.books.store.rate currency = .error e) : Fails settings now call desk e
  | unpublished (rate : Rate) (stage : call.stage = .registered rate) (e : Error)
      (refused : desk.publish settings.publisher now call.request = (.error e, desk)) :
      Fails settings now call desk e
  | late (rate : Rate) (deadline : Int) (stage : call.stage = .waiting rate deadline)
      (unanswered : desk.mailFor? call.id = none) (passed : deadline ≤ now) :
      Fails settings now call desk .cancelled
  | overflow (rate : Rate) (rows : List ExpenseRow) (stage : call.stage = .answered rate rows)
      (e : Error) (sums : Report.aggregate rows rate = .error e) : Fails settings now call desk e

theorem fails_of_step {e : Error} (under_way : call.stage.rank < 8)
    (failed : (call.step settings now desk).1.stage = .finished (.error e)) :
    Fails settings now call desk e := by
  obtain ⟨id, user, since, stage⟩ := call
  cases stage with
  | begun =>
    cases found : desk.books.cachedReport now user since with
    | error e' =>
      simp only [step, found] at failed
      cases failed
    | ok result =>
      obtain ⟨answer, books⟩ := result
      cases answer <;> simp only [step, found] at failed <;> cases failed
  | missed =>
    cases read : desk.books.store.user user with
    | ok row =>
      simp only [step, read] at failed
      cases failed
    | error e' =>
      simp only [step, read] at failed
      cases failed
      exact .userRead rfl e read
  | userRead currency =>
    cases read : desk.books.store.rate currency with
    | ok rate =>
      simp only [step, read] at failed
      cases failed
    | error e' =>
      simp only [step, read] at failed
      cases failed
      exact .rateRead currency rfl e read
  | rated rate => cases failed
  | registered rate =>
    rcases desk.publish_sends settings.publisher now { id, user, since } with
      ⟨after, sent, -⟩ | ⟨e', refused⟩
    · simp only [step, request, sent] at failed
      cases failed
    · simp only [step, request, refused] at failed
      cases failed
      exact .unpublished rate rfl e refused
  | waiting rate deadline =>
    cases mail : desk.mailFor? id with
    | some reply =>
      simp only [step, mail] at failed
      cases failed
    | none =>
      by_cases passed : deadline ≤ now
      · simp only [step, mail, passed, if_true] at failed
        cases failed
        exact .late rate deadline rfl mail passed
      · simp only [step, mail, passed, if_false] at failed
        cases failed
  | answered rate rows =>
    cases sums : Report.aggregate rows rate with
    | ok report =>
      simp only [step, sums] at failed
      cases failed
    | error e' =>
      simp only [step, sums] at failed
      cases failed
      exact .overflow rate rows rfl e sums
  | aggregated report =>
    cases stored : desk.books.cacheReport now settings.cacheTtl user since report <;>
      simp only [step, stored] at failed <;> cases failed
  | finished result => simp at under_way

/-! ## What a step leaves in the cache -/

theorem step_of_aggregated {report : Report} (stage : call.stage = .aggregated report) :
    (call.step settings now desk).1.stage = .finished (.ok report) := by
  unfold step
  rw [stage]
  dsimp only
  split <;> rfl

/-- A step changes no entry that is still of use, unless it ends the call with a report. -/
theorem step_sameLive (settings : ReportSettings) (now : Int) (call : ReportCall)
    (ordered : desk.books.CacheOrdered) :
    Books.SameLive now desk.books (call.step settings now desk).2.books ∨
      ∃ report, (call.step settings now desk).1.stage = .finished (.ok report) := by
  have touches := call.step_touches settings now desk
  generalize (call.step settings now desk).2.books = after at touches
  cases touches with
  | nothing => exact Or.inl fun _ _ => Iff.rfl
  | queued rate stage messages nextMessage => exact Or.inl fun _ _ => Iff.rfl
  | looked stage result _ found => exact Or.inl (Books.cachedReport_sameLive ordered found)
  | kept report stage _ stored => exact Or.inr ⟨report, step_of_aggregated stage⟩

/-! ## Asking again -/

/-- A call misses the cache if no entry of its key is still of use. -/
theorem step_of_lacks (settings : ReportSettings) (stage : call.stage = .begun)
    (lacks : desk.books.Lacks now call.key) :
    ∃ books, call.step settings now desk = (call.toStage .missed, { desk with books }) ∧
      books.store = desk.books.store := by
  unfold step
  rw [stage]
  dsimp only
  cases found : desk.books.cachedReport now call.user call.since with
  | error e => exact ⟨desk.books, rfl, rfl⟩
  | ok result =>
    obtain ⟨answer, books⟩ := result
    cases answer with
    | none => exact ⟨books, rfl, Books.cachedReport_store found⟩
    | some report =>
      obtain ⟨entry, member, same, live, -⟩ := Books.exists_entry_of_cachedReport found
      exact absurd (lacks entry member same) (Int.not_le.2 live)

theorem steps_succ (count : Nat) :
    call.steps settings now (count + 1) desk =
      (call.step settings now desk).1.steps settings now count (call.step settings now desk).2 :=
  rfl

/-- A call that misses the cache, and whose user and rate can be read, waits for the one request that
it sends. -/
theorem steps_of_lacks (stage : call.stage = .begun) (lacks : desk.books.Lacks now call.key)
    {user : User} (userRead : desk.books.store.user call.user = .ok user)
    {rate : Rate} (rateRead : desk.books.store.rate user.currency = .ok rate)
    (taken : (desk.publish settings.publisher now call.request).1 = .ok ()) :
    ∃ after, call.steps settings now 5 desk =
        (call.toStage (.waiting rate (now + settings.timeout)), after) ∧
      after.published = desk.published ++ [call.request] ∧
      after.waiters = desk.waiters ++ [call.waiter] := by
  obtain ⟨books, missed, same⟩ := step_of_lacks settings stage lacks
  let looked : Desk := { desk with books }
  let registered : Desk := looked.register call.waiter
  have second : (call.toStage .missed).step settings now looked =
      (call.toStage (.userRead user.currency), looked) := by
    have read : looked.books.store.user call.user = .ok user := same ▸ userRead
    simp only [step, toStage, read]
  have third : (call.toStage (.userRead user.currency)).step settings now looked =
      (call.toStage (.rated rate), looked) := by
    have read : looked.books.store.rate user.currency = .ok rate := same ▸ rateRead
    simp only [step, toStage, read]
  have fourth : (call.toStage (.rated rate)).step settings now looked =
      (call.toStage (.registered rate), registered) := rfl
  have taken' : (registered.publish settings.publisher now call.request).1 = .ok () :=
    (Desk.publish_of_same same).trans taken
  rcases registered.publish_sends settings.publisher now call.request with
    ⟨after, sent, sends⟩ | ⟨e, refused⟩
  · have fifth : (call.toStage (.registered rate)).step settings now registered =
        (call.toStage (.waiting rate (now + settings.timeout)), after) := by
      unfold request at sent
      simp only [step, toStage, request, sent]
    refine ⟨after, ?_, sends.published, sends.waiters⟩
    rw [steps_succ, missed, steps_succ, second, steps_succ, third, steps_succ, fourth, steps_succ,
      fifth]
    rfl
  · rw [refused] at taken'
    cases taken'

end ReportCall

/-! ## Calls that have ended -/

theorem CallStage.exists_result {stage : CallStage} (ended : 8 ≤ stage.rank) :
    ∃ result, stage = .finished result := by
  cases stage with
  | finished result => exact ⟨result, rfl⟩
  | _ => simp at ended

section Ended

variable {settings : ReportSettings} {limit : Int} {world : ReportWorld} {caller : Nat}
  {call : ReportCall} {result : Outcome Report}

theorem ReportWorld.step_proceed (settings : ReportSettings) (limit : Int) (now : Int)
    (found : world.calls[caller]? = some call) :
    (world.step settings limit (.proceed caller now)).calls[caller]? =
        some (call.step settings now world.desk).1 ∧
      (world.step settings limit (.proceed caller now)).desk =
        (call.step settings now world.desk).2 := by
  simp only [step, found]
  exact ⟨(getElem?_move found).2 (Or.inl ⟨rfl, rfl⟩), rfl⟩

theorem ReportWorld.step_cancel (settings : ReportSettings) (limit : Int)
    (found : world.calls[caller]? = some call) :
    (world.step settings limit (.cancel caller)).calls[caller]? = some (call.cancel world.desk).1 ∧
      (world.step settings limit (.cancel caller)).desk = (call.cancel world.desk).2 := by
  simp only [step, found]
  exact ⟨(getElem?_move found).2 (Or.inl ⟨rfl, rfl⟩), rfl⟩

theorem ReportWorld.step_ended (found : world.calls[caller]? = some call)
    (ended : call.stage = .finished result) (action : ReportAction) :
    (world.step settings limit action).calls[caller]? = some call := by
  have turn := world.step_turns settings limit action
  generalize world.step settings limit action = after at turn
  cases turn with
  | aside _ calls log held => exact calls ▸ found
  | begun other stage => exact getElem?_begin.2 (Or.inl found)
  | moved other own moving here now stage desk effect took =>
    by_cases same : caller = other
    · subst same
      rw [found] at here
      cases here
      rw [ended] at effect
      have stays : call.toStage stage = call := by
        cases effect with
        | failed _ e under_way => simp at under_way
        | ended =>
          rw [← ended]
          rfl
      exact (getElem?_move found).2 (Or.inl ⟨rfl, stays.symm⟩)
    · exact (getElem?_move here).2 (Or.inr ⟨same, found⟩)
  | handed reply waiter waits same => exact found

theorem ReportRun.waited_foldl (settings : ReportSettings) (limit : Int) {run : ReportRun}
    (later : List ReportAction) (waited : Waited run.worlds caller) :
    Waited (later.foldl (ReportRun.step settings limit) run).worlds caller := by
  induction later generalizing run with
  | nil => exact waited
  | cons action later ih =>
    obtain ⟨world, member, rest⟩ := waited
    exact ih ⟨world, List.mem_cons_of_mem _ member, rest⟩

/-- A call that has ended stays as it is, and if it has not waited, it never will have. -/
theorem ReportRun.ended_stays (settings : ReportSettings) (limit : Int) {run : ReportRun}
    (found : run.world.calls[caller]? = some call)
    (ended : call.stage = .finished result) (later : List ReportAction) :
    (later.foldl (ReportRun.step settings limit) run).world.calls[caller]? = some call ∧
      (Waited (later.foldl (ReportRun.step settings limit) run).worlds caller ↔
        Waited run.worlds caller) := by
  induction later using List.reverseRecOn with
  | nil => exact ⟨found, Iff.rfl⟩
  | append_singleton later action ih =>
    obtain ⟨stays, waited⟩ := ih
    rw [List.foldl_append]
    generalize later.foldl (ReportRun.step settings limit) run = before at stays waited
    have here : (before.step settings limit action).world.calls[caller]? = some call :=
      ReportWorld.step_ended stays ended action
    refine ⟨here, (waited_cons fun moved there rank => ?_).trans waited⟩
    have same : some call = some moved := here.symm.trans there
    cases same
    rw [ended] at rank
    cases rank

end Ended

/-! ## What is cached -/

/-- Whatever is cached that was not cached before is the report of a call that returned it. -/
structure Filed (old : List KeptReport) (world : ReportWorld) : Prop where
  ordered : world.desk.books.CacheOrdered
  filled : ∀ entry ∈ world.desk.books.entries, entry ∈ old ∨
    ∃ call ∈ world.calls, entry.key = call.key ∧ ∃ report, call.stage = .finished (.ok report)

namespace Filed

variable {settings : ReportSettings} {limit : Int} {old : List KeptReport} {world : ReportWorld}

theorem step (filed : Filed old world) (action : ReportAction) :
    Filed old (world.step settings limit action) := by
  have touches := world.step_touches settings limit action
  have returned {call : ReportCall} (member : call ∈ world.calls)
      (ended : ∃ report, call.stage = .finished (.ok report)) :
      call ∈ (world.step settings limit action).calls := by
    obtain ⟨report, stage⟩ := ended
    obtain ⟨caller, found⟩ := List.mem_iff_getElem?.1 member
    exact List.mem_of_getElem? (ReportWorld.step_ended found stage action)
  have pruned (prunes : world.desk.books.Prunes (world.step settings limit action).desk.books) :
      Filed old (world.step settings limit action) := by
    refine ⟨prunes.ordered filed.ordered, fun entry member => ?_⟩
    refine (filed.filled entry (prunes.addsNoEntry member)).imp_right ?_
    rintro ⟨call, inCalls, key, ended⟩
    exact ⟨call, returned inCalls ended, key, ended⟩
  generalize after : (world.step settings limit action).desk.books = books at touches pruned
  cases touches with
  | nothing _ => exact pruned (.of_same rfl rfl)
  | queued _ messages nextMessage => exact pruned (.of_same rfl rfl)
  | ledger action =>
    have prunes := LedgerRun.step_prunes limit
      { books := world.desk.books, calls := world.writings } action
    exact pruned prunes
  | called caller now call found _ touches =>
    cases touches with
    | nothing => exact pruned (.of_same rfl rfl)
    | queued rate stage messages nextMessage => exact pruned (.of_same rfl rfl)
    | looked stage answer _ looked =>
      exact pruned ⟨Books.cachedReport_addsNoEntry looked, fun ordered => ordered.cachedReport looked⟩
    | kept report stage _ stored =>
      refine ⟨after ▸ filed.ordered.cacheReport stored, fun entry member => ?_⟩
      rcases Books.mem_of_cacheReport stored (after ▸ member) with before | ⟨key, -⟩
      · refine (filed.filled entry before).imp_right ?_
        rintro ⟨other, inCalls, key, ended⟩
        exact ⟨other, returned inCalls ended, key, ended⟩
      · -- The call that keeps its report returns it in the same step.
        obtain ⟨moved, -⟩ := ReportWorld.step_proceed settings limit now found
        obtain ⟨next, desk, stepped, -⟩ := ReportCall.step_effect settings now call world.desk
        refine Or.inr ⟨_, List.mem_of_getElem? moved, ?_, report,
          ReportCall.step_of_aggregated stage⟩
        rw [stepped]
        exact key

theorem ofActions (settings : ReportSettings) (limit : Int) {desk : Desk}
    (ordered : desk.books.CacheOrdered) (actions : List ReportAction) :
    Filed desk.books.entries (ReportRun.ofActions settings limit desk actions).world := by
  induction actions using List.reverseRecOn with
  | nil => exact ⟨ordered, fun entry member => Or.inl member⟩
  | append_singleton actions action ih =>
    rw [ReportRun.ofActions_append]
    exact ih.step action

end Filed

/-! ## What a failed call leaves behind -/

section Traces

variable (settings : ReportSettings) (limit : Int) (desk : Desk)

/-- The action with which a call ended, and the call as it was before. -/
structure EndedAt (earlier : List ReportAction) (action : ReportAction) (caller : Nat)
    (before call : ReportCall) : Prop where
  found : (ReportRun.ofActions settings limit desk earlier).world.calls[caller]? = some before
  own : action.caller? = some caller
  under_way : before.stage.rank < 8
  same : before.id = call.id
  ended : (ReportRun.ofActions settings limit desk (earlier ++ [action])).world.calls[caller]? =
    some call

/-- The action with which a call failed, and the call as it was before. -/
structure FailedAt (earlier : List ReportAction) (action : ReportAction) (caller : Nat)
    (before : ReportCall) (e : Error) : Prop where
  found : (ReportRun.ofActions settings limit desk earlier).world.calls[caller]? = some before
  way : (∃ now, action = .proceed caller now ∧
      before.Fails settings now (ReportRun.ofActions settings limit desk earlier).world.desk e) ∨
    (action = .cancel caller ∧ before.stage.IsWaiting ∧ e = .cancelled)

/-- None of the steps of a failed call has changed an entry that is still of use. It has failed in
one of the known ways, and if that was before it had a rate, no request of it has gone out. Nobody
waits under its id, and a reply for it is refused and changes nothing. -/
structure LeftNoTrace (actions : List ReportAction) (caller : Nat) (call : ReportCall) (e : Error) :
    Prop where
  uncached : ∀ earlier action later now, actions = earlier ++ action :: later →
    action = .proceed caller now ∨ action = .cancel caller →
      Books.SameLive now (ReportRun.ofActions settings limit desk earlier).world.desk.books
        (ReportRun.ofActions settings limit desk (earlier ++ [action])).world.desk.books
  failed : ∃ earlier action later before, actions = earlier ++ action :: later ∧
    before.id = call.id ∧ FailedAt settings limit desk earlier action caller before e ∧
      (before.stage.rank ≤ 2 →
        (ReportRun.ofActions settings limit desk actions).world.desk.requestsOf call.id = [])
  absent : ∀ waiter ∈ (ReportRun.ofActions settings limit desk actions).world.desk.waiters,
    waiter.id ≠ call.id
  refused : ∀ reply, reply.id = call.id →
    (ReportRun.ofActions settings limit desk actions).world.desk.deliver reply =
      (.noWaiter, (ReportRun.ofActions settings limit desk actions).world.desk)

end Traces

section Failed

variable {settings : ReportSettings} {limit : Int} {desk : Desk} {world : ReportWorld}
  {caller : Nat} {call : ReportCall} {e : Error}

/-- A call that has ended with an action either had ended before, or the action was its own. -/
theorem ReportWorld.ended_step {action : ReportAction} {result : Outcome Report}
    (found : (world.step settings limit action).calls[caller]? = some call)
    (ended : call.stage = .finished result) :
    ∃ before, world.calls[caller]? = some before ∧ before.id = call.id ∧
      (before = call ∨ action.caller? = some caller) := by
  have turn := world.step_turns settings limit action
  generalize world.step settings limit action = after at turn found
  cases turn with
  | aside _ calls log held => exact ⟨call, calls ▸ found, rfl, Or.inl rfl⟩
  | begun other stage =>
    rcases getElem?_begin.1 found with old | ⟨-, rfl⟩
    · exact ⟨call, old, rfl, Or.inl rfl⟩
    · rw [stage] at ended
      cases ended
  | moved other own moving here now stage desk effect took =>
    rcases (getElem?_move here).1 found with ⟨rfl, rfl⟩ | ⟨-, old⟩
    · exact ⟨moving, here, rfl, Or.inr own⟩
    · exact ⟨call, old, rfl, Or.inl rfl⟩
  | handed reply waiter waits same => exact ⟨call, found, rfl, Or.inl rfl⟩

theorem exists_endedAt {actions : List ReportAction} {result : Outcome Report}
    (found : (ReportRun.ofActions settings limit desk actions).world.calls[caller]? = some call)
    (ended : call.stage = .finished result) :
    ∃ earlier action later before, actions = earlier ++ action :: later ∧
      EndedAt settings limit desk earlier action caller before call := by
  induction actions using List.reverseRecOn with
  | nil => cases found
  | append_singleton actions action ih =>
    have stepped := found
    rw [ReportRun.ofActions_append] at stepped
    obtain ⟨before, old, id, same⟩ := ReportWorld.ended_step stepped ended
    by_cases under_way : before.stage.rank < 8
    · have own : action.caller? = some caller := by
        refine same.resolve_left fun unmoved => ?_
        rw [unmoved, ended] at under_way
        simp at under_way
      exact ⟨actions, action, [], before, rfl, old, own, under_way, id, found⟩
    · obtain ⟨result', stage⟩ := CallStage.exists_result (Nat.not_lt.1 under_way)
      obtain rfl : before = call :=
        Option.some.inj ((ReportWorld.step_ended old stage action).symm.trans stepped)
      obtain ⟨earlier, action', later, first, rfl, at_⟩ := ih old
      exact ⟨earlier, action', later ++ [action], first, by simp, at_⟩

/-- A call that ends with an error fails in one of the known ways. -/
theorem EndedAt.failedAt {earlier : List ReportAction} {action : ReportAction} {before : ReportCall}
    (at_ : EndedAt settings limit desk earlier action caller before call)
    (failed : call.stage = .finished (.error e)) :
    FailedAt settings limit desk earlier action caller before e := by
  obtain ⟨found, own, under_way, -, ended⟩ := at_
  refine ⟨found, ?_⟩
  rw [ReportRun.ofActions_append] at ended
  generalize ReportRun.ofActions settings limit desk earlier = run at found ended ⊢
  change (run.world.step settings limit action).calls[caller]? = some call at ended
  cases action with
  | proceed other now =>
    cases own
    rw [(ReportWorld.step_proceed settings limit now found).1] at ended
    cases ended
    exact Or.inl ⟨now, rfl, ReportCall.fails_of_step under_way failed⟩
  | cancel other =>
    cases own
    rw [(ReportWorld.step_cancel settings limit found).1] at ended
    cases ended
    obtain ⟨id, user, since, stage⟩ := before
    cases stage with
    | waiting rate deadline =>
      cases failed
      exact Or.inr ⟨rfl, ⟨rate, deadline, rfl⟩, rfl⟩
    | finished result => simp at under_way
    | _ => cases failed
  | _ => cases own

/-- A call that ends with a report before its request is taken has the report from the cache. -/
theorem EndedAt.begun_of_ok {earlier : List ReportAction} {action : ReportAction}
    {before : ReportCall} (at_ : EndedAt settings limit desk earlier action caller before call)
    {report : Report} (returned : call.stage = .finished (.ok report))
    (early : before.stage.rank ≤ 4) : before.stage = .begun := by
  obtain ⟨found, own, under_way, -, ended⟩ := at_
  rw [ReportRun.ofActions_append] at ended
  generalize ReportRun.ofActions settings limit desk earlier = run at found ended
  change (run.world.step settings limit action).calls[caller]? = some call at ended
  have effect : ∃ now after, before.Effect now run.world.desk before.stage call.stage after := by
    cases action with
    | proceed other now =>
      cases own
      rw [(ReportWorld.step_proceed settings limit now found).1] at ended
      cases ended
      obtain ⟨stage, after, stepped, effect⟩ :=
        ReportCall.step_effect settings now before run.world.desk
      rw [stepped]
      exact ⟨now, after, effect⟩
    | cancel other =>
      cases own
      rw [(ReportWorld.step_cancel settings limit found).1] at ended
      cases ended
      rcases ReportCall.cancel_effect 0 before run.world.desk with stays | ⟨e, cancelled, -⟩
      · rw [stays] at returned
        rw [returned] at under_way
        simp at under_way
      · rw [cancelled] at returned
        cases returned
    | _ => cases own
  obtain ⟨now, after, effect⟩ := effect
  rw [returned] at effect
  generalize before.stage = stage at effect early
  cases effect with
  | cached => rfl
  | returned | ended => simp at early

/-- No step of a call that fails in the end changes an entry that is still of use. -/
theorem sameLive_of_failed (ordered : desk.books.CacheOrdered) {earlier later : List ReportAction}
    {action : ReportAction} {now : Int}
    (found : (ReportRun.ofActions settings limit desk
      (earlier ++ action :: later)).world.calls[caller]? = some call)
    (failed : call.stage = .finished (.error e))
    (own : action = .proceed caller now ∨ action = .cancel caller) :
    Books.SameLive now (ReportRun.ofActions settings limit desk earlier).world.desk.books
      (ReportRun.ofActions settings limit desk (earlier ++ [action])).world.desk.books := by
  rw [List.append_cons, ReportRun.ofActions_append, ReportRun.ofActions_append] at found
  rw [ReportRun.ofActions_append]
  have filed := Filed.ofActions settings limit ordered earlier
  generalize ReportRun.ofActions settings limit desk earlier = run at found filed ⊢
  show Books.SameLive now run.world.desk.books
    (run.world.step settings limit action).desk.books
  cases here : run.world.calls[caller]? with
  | none =>
    have idle : run.world.step settings limit action = run.world := by
      rcases own with rfl | rfl <;> simp only [ReportWorld.step, here]
    rw [idle]
    exact fun _ _ => Iff.rfl
  | some before =>
    rcases own with rfl | rfl
    · obtain ⟨moved, desk'⟩ := ReportWorld.step_proceed settings limit now here
      rw [desk']
      refine (before.step_sameLive settings now filed.ordered).resolve_right ?_
      -- A call that has kept its report has ended with it, and not failed.
      rintro ⟨report, ended⟩
      let after : ReportRun := run.step settings limit (.proceed caller now)
      have there : after.world.calls[caller]? = some (before.step settings now run.world.desk).1 :=
        moved
      obtain ⟨stays, -⟩ := ReportRun.ended_stays settings limit there ended later
      obtain rfl : call = (before.step settings now run.world.desk).1 :=
        Option.some.inj (found.symm.trans stays)
      rw [failed] at ended
      cases ended
    · rw [(ReportWorld.step_cancel settings limit here).2, before.books_cancel]
      exact fun _ _ => Iff.rfl

/-- A call that ends before its request is taken has never waited. -/
theorem EndedAt.not_waited {used : List Uuid} {earlier : List ReportAction} {action : ReportAction}
    {before : ReportCall} (at_ : EndedAt settings limit desk earlier action caller before call)
    (later : List ReportAction) {result : Outcome Report} (ended : call.stage = .finished result)
    (paired : Paired used (ReportRun.ofActions settings limit desk earlier))
    (early : before.stage.rank ≤ 4) :
    ¬Waited (ReportRun.ofActions settings limit desk (earlier ++ action :: later)).worlds caller := by
  obtain ⟨found, -, -, -, there⟩ := at_
  obtain ⟨-, waited⟩ := ReportRun.ended_stays settings limit there ended later
  rw [List.append_cons, ReportRun.ofActions_append, waited]
  rw [ReportRun.ofActions_append] at there ⊢
  generalize ReportRun.ofActions settings limit desk earlier = run at paired found there
  refine mt (waited_cons fun moved now rank => ?_).1 ?_
  · obtain rfl : call = moved := Option.some.inj (there.symm.trans now)
    rw [ended] at rank
    cases rank
  · rintro ⟨world, past, stage, at_, waits⟩
    obtain ⟨call', found', rank_le⟩ := paired.ranks world past caller stage at_
    rw [found] at found'
    cases found'
    have rank := CallStage.isWaiting_iff.1 waits
    omega

theorem leftNoTrace (new : desk.IsNew) (ordered : desk.books.CacheOrdered)
    {actions : List ReportAction} (fresh : FreshIds desk actions)
    (found : (ReportRun.ofActions settings limit desk actions).world.calls[caller]? = some call)
    (failed : call.stage = .finished (.error e)) :
    LeftNoTrace settings limit desk actions caller call e := by
  obtain ⟨used, paired⟩ := exists_paired settings limit new fresh
  have member := List.mem_of_getElem? found
  constructor
  case uncached =>
    rintro earlier action later now rfl own
    exact sameLive_of_failed ordered found failed own
  case failed =>
    obtain ⟨earlier, action, later, before, rfl, at_⟩ := exists_endedAt found failed
    refine ⟨earlier, action, later, before, rfl, at_.same, at_.failedAt failed, fun unrated => ?_⟩
    obtain ⟨used', paired'⟩ := exists_paired settings limit new fresh.earlier
    have quiet := at_.not_waited later failed paired' (Nat.le_trans unrated (by decide))
    have tallied := tallied_ofActions settings limit new fresh
    exact (tallied.sent caller call found).elim (fun sent => absurd sent.1 quiet) And.right
  case absent => exact paired.absent_of_ended member failed
  case refused => exact fun reply same => paired.deliver_of_ended member failed same

/-- Once a call has got beyond registering, one request of it has gone out, unless it was answered
from the cache or failed before its request was taken. -/
theorem accounted (new : desk.IsNew) {actions : List ReportAction} (fresh : FreshIds desk actions)
    (found : (ReportRun.ofActions settings limit desk actions).world.calls[caller]? = some call)
    (beyond : 5 ≤ call.stage.rank) :
    (ReportRun.ofActions settings limit desk actions).world.desk.requestsOf call.id =
        [call.request] ∨
      ∃ earlier action later before, actions = earlier ++ action :: later ∧
        EndedAt settings limit desk earlier action caller before call ∧
          (before.stage = .begun ∨ before.stage.rank ≤ 4 ∧
            ∃ e, FailedAt settings limit desk earlier action caller before e) := by
  obtain ⟨used, paired⟩ := exists_paired settings limit new fresh
  have sent := (tallied_ofActions settings limit new fresh).sent caller call found
  have one (waited : Waited (ReportRun.ofActions settings limit desk actions).worlds caller) :
      (ReportRun.ofActions settings limit desk actions).world.desk.requestsOf call.id =
        [call.request] :=
    sent.elim And.right fun unsent => absurd waited unsent.1
  by_cases under_way : call.stage.rank < 8
  · exact Or.inl (one (paired.waited found beyond under_way))
  obtain ⟨result, ended⟩ := CallStage.exists_result (Nat.not_lt.1 under_way)
  obtain ⟨earlier, action, later, before, rfl, at_⟩ := exists_endedAt found ended
  rcases Nat.lt_or_ge 4 before.stage.rank with late | early
  · obtain ⟨used', paired'⟩ := exists_paired settings limit new fresh.earlier
    refine Or.inl (one ?_)
    rw [ReportRun.ofActions_append]
    exact ReportRun.waited_foldl settings limit _ (paired'.waited at_.found late at_.under_way)
  · refine Or.inr ⟨earlier, action, later, before, rfl, at_, ?_⟩
    cases result with
    | ok report => exact Or.inl (at_.begun_of_ok ended early)
    | error e => exact Or.inr ⟨early, e, at_.failedAt ended⟩

end Failed

/-! ## All that the desk keeps up -/

/-- What holds of a run, whatever has failed in it. Of every failed call, what `LeftNoTrace` tells.
Those wait who have registered, have no answer yet and have not ended, each of them once. Of every
call that has waited one request has gone out, and of every other none. What has been cached, some
call has returned. A call that finds nothing of use in the cache misses, and once it has got beyond
registering it has sent one request, unless its user, its rate or the publisher failed it. -/
structure FailuresTraceless (settings : ReportSettings) (limit : Int) (desk : Desk)
    (actions : List ReportAction) (run : ReportRun) : Prop where
  failed : ∀ caller call e, run.world.calls[caller]? = some call →
    call.stage = .finished (.error e) → LeftNoTrace settings limit desk actions caller call e
  waiting : ∀ waiter, waiter ∈ run.world.desk.waiters ↔
    ∃ call ∈ run.world.calls, waiter = call.waiter ∧ 4 ≤ call.stage.rank ∧ call.result? = none ∧
      ¬HandedOver run.world.log call.id
  once : (run.world.desk.waiters.map Waiter.id).Nodup
  sent : ∀ caller call, run.world.calls[caller]? = some call →
    Sent run.worlds run.world.desk caller call
  filled : ∀ entry ∈ run.world.desk.books.entries, entry ∈ desk.books.entries ∨
    ∃ call ∈ run.world.calls, entry.key = call.key ∧ ∃ report, call.stage = .finished (.ok report)
  missed : ∀ call ∈ run.world.calls, ∀ now, call.stage = .begun →
    run.world.desk.books.Lacks now call.key →
      (call.step settings now run.world.desk).1 = call.toStage .missed
  accounted : ∀ caller call, run.world.calls[caller]? = some call → 5 ≤ call.stage.rank →
    run.world.desk.requestsOf call.id = [call.request] ∨
      ∃ earlier action later before, actions = earlier ++ action :: later ∧
        EndedAt settings limit desk earlier action caller before call ∧
          (before.stage = .begun ∨ before.stage.rank ≤ 4 ∧
            ∃ e, FailedAt settings limit desk earlier action caller before e)
  retried : ∀ call ∈ run.world.calls, ∀ now user rate, call.stage = .begun →
    run.world.desk.books.Lacks now call.key → run.world.store.user call.user = .ok user →
    run.world.store.rate user.currency = .ok rate →
    (run.world.desk.publish settings.publisher now call.request).1 = .ok () →
      ∃ after, call.steps settings now 5 run.world.desk =
          (call.toStage (.waiting rate (now + settings.timeout)), after) ∧
        after.published = run.world.desk.published ++ [call.request] ∧
        after.waiters = run.world.desk.waiters ++ [call.waiter]

/-- Reports that fail leave no trace, whatever interleaves with them. -/
theorem failures_leave_no_trace (settings : ReportSettings) (limit : Int) {desk : Desk}
    (new : desk.IsNew) (ordered : desk.books.CacheOrdered) {actions : List ReportAction}
    (fresh : FreshIds desk actions) :
    FailuresTraceless settings limit desk actions
      (ReportRun.ofActions settings limit desk actions) := by
  obtain ⟨used, paired⟩ := exists_paired settings limit new fresh
  have tallied := tallied_ofActions settings limit new fresh
  exact {
    failed := fun caller call e found failed => leftNoTrace new ordered fresh found failed
    waiting := fun waiter => tallied.mem_waiters_iff paired
    once := tallied.once
    sent := tallied.sent
    filled := (Filed.ofActions settings limit ordered actions).filled
    missed := by
      intro call _ now stage lacks
      obtain ⟨books, missed, -⟩ := ReportCall.step_of_lacks settings stage lacks
      rw [missed]
    accounted := fun caller call found beyond => accounted new fresh found beyond
    retried := fun call _ now user rate stage lacks userRead rateRead taken =>
      ReportCall.steps_of_lacks stage lacks userRead rateRead taken }

/-- The caller of a report gives up, somebody asks for the report of nobody, and the first one asks
again. -/
def failedReports : List ReportAction :=
  [.ledger (.perform (.addUser 1)), .begin { value := 201 } 1 .epoch] ++
    List.replicate 5 (.proceed 0 0) ++ [.cancel 0, .begin { value := 202 } 9 .epoch] ++
    List.replicate 2 (.proceed 1 0) ++ [.begin { value := 203 } 1 .epoch] ++
    List.replicate 5 (.proceed 2 1)

theorem failures_leave_no_trace_failedReports :
    newDesk.IsNew ∧ newDesk.books.CacheOrdered ∧ FreshIds newDesk failedReports ∧
      let run := ReportRun.ofActions sharedSettings 100 newDesk failedReports
      FailuresTraceless sharedSettings 100 newDesk failedReports run ∧
      (run.world.calls.map fun call => call.result?.map fun result => result.toOption.isSome) =
        [some false, some false, none] ∧
      run.world.desk.waiters = [{ id := { value := 203 }, user := 1 }] ∧
      run.world.desk.published.map ReportRequest.id = [{ value := 201 }, { value := 203 }] := by
  have new : newDesk.IsNew := ⟨rfl, rfl, rfl⟩
  have ordered : newDesk.books.CacheOrdered := nofun
  have fresh : FreshIds newDesk failedReports := ⟨by decide, by decide⟩
  refine ⟨new, ordered, fresh, failures_leave_no_trace sharedSettings 100 new ordered fresh, ?_, ?_,
    ?_⟩
  · decide +kernel
  · decide +kernel
  · decide +kernel

end ExpenseLedger
