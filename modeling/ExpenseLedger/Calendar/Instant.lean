import ExpenseLedger.Calendar.Date

/-!
# Instants

Points in time on the UTC time line, as whole seconds since 1970-01-01T00:00:00Z and a fraction
in nanoseconds. A fraction of a second or more belongs to a leap second. Instants are ordered by
seconds and then by fraction.
-/

namespace ExpenseLedger

structure Instant where
  seconds : Int
  nanos : Nat
  deriving DecidableEq, Repr, Inhabited

namespace Instant

def secondsPerDay : Int := 86400

/-- The first second of the calendar. -/
def minSeconds : Int := -8334601228800

/-- The last second of the calendar. -/
def maxSeconds : Int := 8210266876799

/-- The instant lies in the years of the calendar. -/
def Representable (t : Instant) : Prop :=
  minSeconds ≤ t.seconds ∧ t.seconds ≤ maxSeconds

instance (t : Instant) : Decidable t.Representable :=
  inferInstanceAs (Decidable (_ ∧ _))

instance : LT Instant :=
  ⟨fun a b => a.seconds < b.seconds ∨ (a.seconds = b.seconds ∧ a.nanos < b.nanos)⟩

instance : LE Instant :=
  ⟨fun a b => a.seconds < b.seconds ∨ (a.seconds = b.seconds ∧ a.nanos ≤ b.nanos)⟩

instance (a b : Instant) : Decidable (a < b) :=
  inferInstanceAs (Decidable (_ ∨ _))

instance (a b : Instant) : Decidable (a ≤ b) :=
  inferInstanceAs (Decidable (_ ∨ _))

def ofSeconds (seconds : Int) : Instant :=
  { seconds, nanos := 0 }

/-- The instant at a whole second, if the calendar has it. -/
def ofSeconds? (seconds : Int) : Option Instant :=
  if (ofSeconds seconds).Representable then some (ofSeconds seconds) else none

/-- The instant a number of milliseconds after 1970-01-01T00:00:00Z. -/
def ofMillis (millis : Int) : Instant :=
  { seconds := millis / 1000, nanos := (millis % 1000).toNat * 1000000 }

/-- The instant without its fraction. -/
def floor (t : Instant) : Instant :=
  ofSeconds t.seconds

/-- 1970-01-01T00:00:00Z. -/
def epoch : Instant := ofSeconds 0

/-- The number of the day that holds the instant, counted from 1970-01-01. -/
def dayNumber (t : Instant) : Int :=
  t.seconds / secondsPerDay

def date (t : Instant) : Date :=
  Date.ofDay t.dayNumber

/-- The first instant of a date. -/
def midnight (date : Date) : Instant :=
  ofSeconds (date.dayNumber * secondsPerDay)

end Instant
end ExpenseLedger
