import ExpenseLedger.Proofs.Report.World

/-!
# What a report call has from the past

What a call holds it has from an earlier world: the currency and the rate from worlds in which it
was about to read them, the rows from one in which it was waiting, the reply from its mail.
-/

namespace ExpenseLedger

/-! ## What the past tells -/

section Past

variable (worlds : List ReportWorld) (log : List ReportEvent) (caller : Nat)

/-- The currency was that of the user when the call was about to read it. -/
def UserRead (user currency : Int) : Prop :=
  ∃ world ∈ worlds, world.stage? caller = some .missed ∧
    ∃ row, world.store.user user = .ok row ∧ row.currency = currency

/-- The rate was that of the user's currency when the call was about to read the one and the
other. -/
def Rated (user : Int) (rate : Rate) : Prop :=
  ∃ currency, UserRead worlds caller user currency ∧
    ∃ world ∈ worlds, world.stage? caller = some (.userRead currency) ∧
      world.store.rate currency = .ok rate

/-- The call was waiting in one of the worlds. -/
def Waited : Prop :=
  ∃ world ∈ worlds, ∃ stage, world.stage? caller = some stage ∧ stage.IsWaiting

/-- The rows were those of the user and the window while the call was waiting. -/
def ReadWhileWaiting (user : Int) (since : Instant) (rows : List ExpenseRow) : Prop :=
  ∃ world ∈ worlds, (∃ stage, world.stage? caller = some stage ∧ stage.IsWaiting) ∧
    world.store.expensesSince user since = .ok rows

/-- The call took the rows of a reply, which were read while it was waiting. -/
def Answered (call : ReportCall) (rows : List ExpenseRow) : Prop :=
  ∃ reply, .taken caller reply ∈ log ∧ reply.expenses = rows ∧
    ReadWhileWaiting worlds caller call.user call.since rows

/-- The report is the aggregate of the rows that the call took, at the rate that it had read. -/
def Aggregated (call : ReportCall) (report : Report) : Prop :=
  ∃ rate rows, Rated worlds caller call.user rate ∧ Answered worlds log caller call rows ∧
    Report.aggregate rows rate = .ok report

/-- The report was in the cache when the call began, and the call never waited. -/
def Cached (call : ReportCall) (report : Report) : Prop :=
  ¬Waited worlds caller ∧ ∃ world ∈ worlds, world.stage? caller = some .begun ∧
    ∃ now books, world.desk.books.cachedReport now call.user call.since = .ok (some report, books)

/-- What a call holds, it has from the past. -/
def Justified (call : ReportCall) : Prop :=
  match call.stage with
  | .begun | .missed | .finished (.error _) => True
  | .userRead currency => UserRead worlds caller call.user currency
  | .rated rate | .registered rate | .waiting rate _ => Rated worlds caller call.user rate
  | .answered rate rows =>
    Rated worlds caller call.user rate ∧ Answered worlds log caller call rows
  | .aggregated report => Aggregated worlds log caller call report
  | .finished (.ok report) =>
    Cached worlds caller call report ∨ Aggregated worlds log caller call report

end Past

section Mono

variable {worlds : List ReportWorld} {log log' : List ReportEvent} {caller : Nat}
  {call : ReportCall} {next : ReportWorld}

theorem UserRead.mono {user currency : Int} (h : UserRead worlds caller user currency) :
    UserRead (next :: worlds) caller user currency := by
  obtain ⟨world, member, rest⟩ := h
  exact ⟨world, List.mem_cons_of_mem _ member, rest⟩

theorem Rated.mono {user : Int} {rate : Rate} (h : Rated worlds caller user rate) :
    Rated (next :: worlds) caller user rate := by
  obtain ⟨currency, read, world, member, rest⟩ := h
  exact ⟨currency, read.mono, world, List.mem_cons_of_mem _ member, rest⟩

theorem ReadWhileWaiting.mono {user : Int} {since : Instant} {rows : List ExpenseRow}
    (h : ReadWhileWaiting worlds caller user since rows) :
    ReadWhileWaiting (next :: worlds) caller user since rows := by
  obtain ⟨world, member, rest⟩ := h
  exact ⟨world, List.mem_cons_of_mem _ member, rest⟩

theorem Answered.mono {rows : List ExpenseRow} (h : Answered worlds log caller call rows)
    (kept : ∀ event ∈ log, event ∈ log') : Answered (next :: worlds) log' caller call rows := by
  obtain ⟨reply, taken, same, read⟩ := h
  exact ⟨reply, kept _ taken, same, read.mono⟩

theorem Aggregated.mono {report : Report} (h : Aggregated worlds log caller call report)
    (kept : ∀ event ∈ log, event ∈ log') : Aggregated (next :: worlds) log' caller call report := by
  obtain ⟨rate, rows, rated, answered, sums⟩ := h
  exact ⟨rate, rows, rated.mono, answered.mono kept, sums⟩

theorem Cached.mono {report : Report} (h : Cached worlds caller call report)
    (resting : ∀ stage, next.stage? caller = some stage → ¬stage.IsWaiting) :
    Cached (next :: worlds) caller call report := by
  obtain ⟨never, world, member, rest⟩ := h
  refine ⟨?_, world, List.mem_cons_of_mem _ member, rest⟩
  rintro ⟨other, inWorlds, stage, at_, waits⟩
  rcases List.mem_cons.1 inWorlds with rfl | before
  · exact resting stage at_ waits
  · exact never ⟨other, before, stage, at_, waits⟩

/-- A call that has stayed where it was is justified as before. -/
theorem Justified.mono (h : Justified worlds log caller call)
    (kept : ∀ event ∈ log, event ∈ log') (stays : next.stage? caller = some call.stage) :
    Justified (next :: worlds) log' caller call := by
  unfold Justified at h ⊢
  split
  · trivial
  · trivial
  · trivial
  · next stage => rw [stage] at h; exact h.mono
  · next stage => rw [stage] at h; exact h.mono
  · next stage => rw [stage] at h; exact h.mono
  · next stage => rw [stage] at h; exact h.mono
  · next stage => rw [stage] at h; exact ⟨h.1.mono, h.2.mono kept⟩
  · next stage => rw [stage] at h; exact h.mono kept
  · next report stage =>
    rw [stage] at h
    refine h.imp (fun cached => cached.mono fun other at_ waits => ?_) fun summed => summed.mono kept
    rw [stays, stage] at at_
    cases at_
    obtain ⟨rate, deadline, impossible⟩ := waits
    cases impossible

end Mono

/-- A step that a call takes justifies what it holds then. The mail of a call that waits has to
have been read while it waited. -/
theorem ReportCall.Effect.justified {call : ReportCall} {now : Int} {world next : ReportWorld}
    {worlds : List ReportWorld} {log log' : List ReportEvent} {caller : Nat} {stage : CallStage}
    {after : Desk} (effect : Effect call now world.desk call.stage stage after)
    (before : Justified worlds log caller call) (kept : ∀ event ∈ log, event ∈ log')
    (here : world ∈ worlds) (at_ : world.stage? caller = some call.stage)
    (ranks : ∀ other ∈ worlds, ∀ earlier, other.stage? caller = some earlier →
      earlier.rank ≤ call.stage.rank)
    (mail : ∀ reply, call.stage.IsWaiting → world.desk.mailFor? call.id = some reply →
      stage.rank = 6 → .taken caller reply ∈ log' ∧
        ReadWhileWaiting worlds caller call.user call.since reply.expenses)
    (moved : next.stage? caller = some stage) :
    Justified (next :: worlds) log' caller (call.toStage stage) := by
  generalize stood : call.stage = first at effect at_ ranks
  unfold Justified at before
  rw [stood] at before
  cases effect with
  | cached report books hit =>
    refine Or.inl ⟨?_, world, List.mem_cons_of_mem _ here, at_, now, books, hit⟩
    rintro ⟨other, inWorlds, earlier, atOther, waits⟩
    have rank := CallStage.isWaiting_iff.1 waits
    rcases List.mem_cons.1 inWorlds with rfl | past
    · rw [moved] at atOther
      cases atOther
      cases rank
    · have low := ranks other past earlier atOther
      rw [rank] at low
      exact absurd low (by decide)
  | missed books same => trivial
  | userRead row read => exact ⟨world, List.mem_cons_of_mem _ here, at_, row, read, rfl⟩
  | rated currency rate read =>
    exact ⟨currency, before.mono, world, List.mem_cons_of_mem _ here, at_, read⟩
  | registered rate => exact before.mono
  | published rate deadline after sends => exact before.mono
  | waited rate deadline => exact before.mono
  | answered rate deadline reply found =>
    obtain ⟨taken, read⟩ := mail reply ⟨rate, deadline, stood⟩ found rfl
    exact ⟨before.mono, reply, taken, rfl, read.mono⟩
  | aggregated rate rows report sums =>
    exact ⟨rate, rows, before.1.mono, before.2.mono kept, sums⟩
  | returned report books same => exact Or.inr (before.mono kept)
  | failed e under_way => trivial
  | ended result =>
    have same : call.toStage (.finished result) = call := by
      rw [← stood]
      rfl
    rw [same]
    have again : Justified worlds log caller call := by
      unfold Justified
      rw [stood]
      exact before
    exact again.mono kept (moved.trans (by rw [stood]))

end ExpenseLedger
