import ExpenseLedger.Calendar.Instant

/-!
# Report periods

A report covers the expenses since the start of the running day, week, month or year, or all of
them. The start of the window is inclusive and a function of the present instant alone. Month
bounds also decide which expenses count against a monthly limit.
-/

namespace ExpenseLedger

namespace Instant

/-- Midnight at the first day of the month that holds the instant. -/
def startOfMonth (t : Instant) : Instant :=
  midnight t.date.firstOfMonth

/-- Midnight at the first day of the next month. The last month of the calendar has none, and
there the instant's own midnight stands in. -/
def startOfNextMonth (t : Instant) : Instant :=
  let next := t.date.firstOfNextMonth
  midnight (if next.Exists then next else t.date)

/-- The instant lies in the month that holds `now`. -/
def InMonthOf (t now : Instant) : Prop :=
  now.startOfMonth ≤ t ∧ t < now.startOfNextMonth

instance (t now : Instant) : Decidable (t.InMonthOf now) :=
  inferInstanceAs (Decidable (_ ∧ _))

end Instant

/-- How far back a report reaches. -/
inductive Period where
  | day
  | week
  | month
  | year
  | all
  deriving DecidableEq, Repr

namespace Period

/-- The period of a report that asks for none. -/
instance : Inhabited Period := ⟨.month⟩

def name : Period → String
  | .day => "day"
  | .week => "week"
  | .month => "month"
  | .year => "year"
  | .all => "all"

/-- All periods, the shortest first. -/
def everyPeriod : List Period := [.day, .week, .month, .year, .all]

def ofName? (name : String) : Option Period :=
  everyPeriod.find? fun period => period.name == name

/-- The start of the window at an instant. A week that begins before the calendar does has
none. -/
def windowStart? (period : Period) (now : Instant) : Option Instant :=
  match period with
  | .day => some (Instant.midnight now.date)
  | .week =>
    let monday := now.dayNumber - Date.daysSinceMonday now.dayNumber
    Instant.ofSeconds? (monday * Instant.secondsPerDay)
  | .month => some now.startOfMonth
  | .year => some (Instant.midnight now.date.firstOfYear)
  | .all => some Instant.epoch

end Period
end ExpenseLedger
