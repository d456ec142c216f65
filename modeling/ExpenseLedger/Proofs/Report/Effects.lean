import ExpenseLedger.Proofs.Cache.Entries
import ExpenseLedger.Proofs.Report.World

/-!
# What happens to the books around the desk

`ReportWorld.step_touches` says all that an action can do to the books: it leaves them, changes the
queue, does what the ledger does, looks a report up in the cache, or keeps one there. The last two
are steps of report calls, the first one of a call and the last.
-/

namespace ExpenseLedger

/-- The books with another queue. -/
def Books.withQueue (books : Books) (messages : List QueuedMessage) (nextMessage : Int) : Books :=
  { books with store := { books.store with messages, nextMessage } }

/-! ## Steps of a call -/

namespace ReportCall

/-- What a step of a call can do to the books. -/
inductive Touches (settings : ReportSettings) (now : Int) (call : ReportCall) (books : Books) :
    Books → Prop
  | nothing : Touches settings now call books books
  | queued (rate : Rate) (stage : call.stage = .registered rate) (messages : List QueuedMessage)
      (nextMessage : Int) : Touches settings now call books (books.withQueue messages nextMessage)
  | looked (stage : call.stage = .begun) (result : Option Report) (after : Books)
      (found : books.cachedReport now call.user call.since = .ok (result, after)) :
      Touches settings now call books after
  | kept (report : Report) (stage : call.stage = .aggregated report) (after : Books)
      (stored : books.cacheReport now settings.cacheTtl call.user call.since report = .ok after) :
      Touches settings now call books after

variable {settings : ReportSettings} {now : Int} {call : ReportCall} {desk : Desk}

theorem step_touches (settings : ReportSettings) (now : Int) (call : ReportCall) (desk : Desk) :
    Touches settings now call desk.books (call.step settings now desk).2.books := by
  obtain ⟨id, user, since, stage⟩ := call
  cases stage with
  | begun =>
    cases found : desk.books.cachedReport now user since with
    | error e =>
      simp only [step, found]
      exact .nothing
    | ok result =>
      obtain ⟨answer, books⟩ := result
      cases answer <;> simp only [step, found] <;> exact .looked rfl _ books found
  | missed =>
    cases read : desk.books.store.user user <;> simp only [step, read] <;> exact .nothing
  | userRead currency =>
    cases read : desk.books.store.rate currency <;> simp only [step, read] <;> exact .nothing
  | rated rate => exact .nothing
  | registered rate =>
    simp only [step, Desk.publish]
    cases settings.publisher with
    | outbox => exact .nothing
    | broken fault => exact .nothing
    | queue handle =>
      rcases handle.publish_eq (request { id, user, since, stage := .registered rate }) now
        desk.books.store with ⟨-, sent⟩ | ⟨-, e, failed⟩
      · simp only [sent]
        exact .queued rate rfl _ _
      · simp only [failed]
        exact .nothing
  | waiting rate deadline =>
    simp only [step]
    split
    · exact .nothing
    · split <;> exact .nothing
  | answered rate rows =>
    cases sums : Report.aggregate rows rate <;> simp only [step, sums] <;> exact .nothing
  | aggregated report =>
    cases stored : desk.books.cacheReport now settings.cacheTtl user since report with
    | error e =>
      simp only [step, stored]
      exact .nothing
    | ok books =>
      simp only [step, stored]
      exact .kept report rfl books stored
  | finished result => exact .nothing

theorem books_cancel (call : ReportCall) (desk : Desk) :
    (call.cancel desk).2.books = desk.books := by
  rcases cancel_effect 0 call desk with stays | ⟨e, cancelled, -⟩
  · rw [stays]
  · rw [cancelled]
    rfl

end ReportCall

theorem Desk.books_deliver (desk : Desk) (reply : Reply) :
    (desk.deliver reply).2.books = desk.books := by
  unfold deliver
  split
  · rfl
  · split <;> rfl

/-! ## Actions in the world -/

namespace ReportWorld

/-- What an action can do to the books. -/
inductive Touches (settings : ReportSettings) (limit : Int) (world : ReportWorld) :
    ReportAction → Books → Prop
  | nothing (action : ReportAction) : Touches settings limit world action world.desk.books
  | queued (action : ReportAction) (messages : List QueuedMessage) (nextMessage : Int) :
      Touches settings limit world action (world.desk.books.withQueue messages nextMessage)
  | ledger (action : LedgerAction) :
      Touches settings limit world (.ledger action)
        (LedgerRun.step limit { books := world.desk.books, calls := world.writings } action).books
  | called (caller : Nat) (now : Int) (call : ReportCall)
      (found : world.calls[caller]? = some call) (after : Books)
      (touches : call.Touches settings now world.desk.books after) :
      Touches settings limit world (.proceed caller now) after

theorem step_touches (settings : ReportSettings) (limit : Int) (world : ReportWorld)
    (action : ReportAction) :
    world.Touches settings limit action (world.step settings limit action).desk.books := by
  cases action with
  | begin id user since => exact .nothing _
  | proceed caller now =>
    cases found : world.calls[caller]? with
    | none =>
      simp only [step, found]
      exact .nothing _
    | some call =>
      simp only [step, found]
      exact .called caller now call found _ (call.step_touches settings now world.desk)
  | cancel caller =>
    cases found : world.calls[caller]? with
    | none =>
      simp only [step, found]
      exact .nothing _
    | some call =>
      simp only [step, found, move, call.books_cancel world.desk]
      exact .nothing _
  | ledger action => exact .ledger action
  | publishElsewhere handle request now =>
    rcases handle.publish_eq request now world.store with ⟨-, sent⟩ | ⟨-, e, failed⟩
    · simp only [step, sent]
      exact .queued _ _ _
    · simp only [step, failed]
      exact .nothing _
  | claim handle now =>
    by_cases reached : world.store.reaches [.requests] = true
    · rcases handle.claim_eq now reached with ⟨none, -⟩ | ⟨before, row, rest, -, -, -, claimed⟩
      · simp only [step, none]
        exact .nothing _
      · simp only [step, claimed]
        exact .queued _ _ _
    · obtain ⟨e, failed⟩ := handle.claim_unreached now reached
      simp only [step, failed]
      exact .nothing _
  | prepare index =>
    simp only [step]
    split
    · exact .nothing _
    · split <;> exact .nothing _
  | deliver index =>
    simp only [step]
    split
    · exact .nothing _
    · simp only [arrive, Desk.books_deliver]
      exact .nothing _
  | deliverStray reply =>
    simp only [step]
    split
    · exact .nothing _
    · simp only [arrive, Desk.books_deliver]
      exact .nothing _
  | settle handle receipt =>
    rcases handle.acknowledge_eq receipt world.desk.books.store with done | ⟨e, failed⟩
    · simp only [step, Worker.settle, Books.withStore, done, bind, Except.bind]
      exact .queued _ _ _
    · simp only [step, Worker.settle, Books.withStore, failed, bind, Except.bind]
      exact .nothing _

end ReportWorld
end ExpenseLedger
