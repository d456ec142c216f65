/-!
# Calendar dates

The proleptic Gregorian calendar over the years -262143 to 262142. A date and its day number,
counted from 1970-01-01, determine each other: `Date.dayNumber` counts days and `Date.ofDay`
finds the date of a count.
-/

namespace ExpenseLedger

/-- A year, month and day; not every triple is a date of the calendar. -/
structure Date where
  year : Int
  month : Nat
  day : Nat
  deriving DecidableEq, Repr, Inhabited

namespace Date

/-- The first year of the calendar. -/
def minYear : Int := -262143

/-- The last year of the calendar. -/
def maxYear : Int := 262142

/-- Every fourth year is a leap year, except for centuries that four hundred does not divide. -/
def isLeapYear (year : Int) : Bool :=
  year % 4 == 0 && (year % 100 != 0 || year % 400 == 0)

/-- The number of days of a month; none for what is no month. -/
def daysInMonth (leap : Bool) : Nat → Nat
  | 1 | 3 | 5 | 7 | 8 | 10 | 12 => 31
  | 4 | 6 | 9 | 11 => 30
  | 2 => if leap then 29 else 28
  | _ => 0

/-- The number of days of a year before a month. -/
def daysBeforeMonth (leap : Bool) : Nat → Nat
  | 0 => 0
  | 1 => 0
  | month + 1 => daysBeforeMonth leap month + daysInMonth leap month

/-- The number of days from 0001-01-01 to the first day of a year. -/
def daysBeforeYear (year : Int) : Int :=
  let past := year - 1
  365 * past + past / 4 - past / 100 + past / 400

/-- The day number of 1970-01-01, counted from 0001-01-01. -/
def epochDay : Int := 719162

def Exists (date : Date) : Prop :=
  minYear ≤ date.year ∧ date.year ≤ maxYear ∧ 1 ≤ date.day ∧
    date.day ≤ daysInMonth (isLeapYear date.year) date.month

instance (date : Date) : Decidable date.Exists :=
  inferInstanceAs (Decidable (_ ∧ _ ∧ _ ∧ _))

/-- The number of days from 1970-01-01 to a date. -/
def dayNumber (date : Date) : Int :=
  daysBeforeYear date.year + daysBeforeMonth (isLeapYear date.year) date.month + date.day - 1 -
    epochDay

/-- The year of a day counted from 0001-01-01. The mean length of a year gives it up to one. -/
def yearOfDay (day : Int) : Int :=
  let guess := 400 * day / 146097 + 1
  if day < daysBeforeYear guess then guess - 1
  else if daysBeforeYear (guess + 1) ≤ day then guess + 1
  else guess

/-- The last month, from `month` down, that begins on or before a day of the year. -/
def monthOfDay (leap : Bool) (dayOfYear : Nat) : Nat → Nat
  | 0 => 1
  | month + 1 =>
    if daysBeforeMonth leap (month + 1) ≤ dayOfYear then month + 1
    else monthOfDay leap dayOfYear month

/-- The date that is `day` days after 1970-01-01. -/
def ofDay (day : Int) : Date :=
  let count := day + epochDay
  let year := yearOfDay count
  let leap := isLeapYear year
  let dayOfYear := (count - daysBeforeYear year).toNat
  let month := monthOfDay leap dayOfYear 12
  { year, month, day := dayOfYear - daysBeforeMonth leap month + 1 }

/-- The number of days since Monday of the day that is `day` days after 1970-01-01, which was
a Thursday. -/
def daysSinceMonday (day : Int) : Int :=
  (day + 3) % 7

def firstOfMonth (date : Date) : Date :=
  { date with day := 1 }

def firstOfNextMonth (date : Date) : Date :=
  if date.month = 12 then { year := date.year + 1, month := 1, day := 1 }
  else { year := date.year, month := date.month + 1, day := 1 }

def firstOfYear (date : Date) : Date :=
  { date with month := 1, day := 1 }

end Date
end ExpenseLedger
