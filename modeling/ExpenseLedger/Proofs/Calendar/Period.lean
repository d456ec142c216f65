import ExpenseLedger.Calendar.Period
import ExpenseLedger.Proofs.Calendar.Date

/-!
# Windows and months on the time line

A window begins at midnight of the first date of its day, week, month or year. Instants are compared
with a midnight by their day numbers alone, and the first date is the same for all days from the first
one on (`Period.firstDate_eq_of_le`), so a window begins at one instant for all instants in it, and
never earlier for a later instant. Months are cut off at both ends, and an instant is between the
bounds of a month exactly when its date is in the month: `windows_follow_calendar`.
-/

namespace ExpenseLedger

/-! ## Midnights -/

namespace Instant

section Midnights

variable {t t' : Instant} {date : Date}

theorem le_iff : t ≤ t' ↔ t.seconds < t'.seconds ∨ t.seconds = t'.seconds ∧ t.nanos ≤ t'.nanos :=
  Iff.rfl

theorem lt_iff : t < t' ↔ t.seconds < t'.seconds ∨ t.seconds = t'.seconds ∧ t.nanos < t'.nanos :=
  Iff.rfl

theorem dayNumber_mono (h : t ≤ t') : t.dayNumber ≤ t'.dayNumber := by
  rw [le_iff] at h
  unfold dayNumber secondsPerDay
  omega

theorem midnight_le_iff : midnight date ≤ t ↔ date.dayNumber ≤ t.dayNumber := by
  rw [le_iff]
  unfold midnight ofSeconds dayNumber secondsPerDay
  dsimp only
  omega

theorem lt_midnight_iff : t < midnight date ↔ t.dayNumber < date.dayNumber := by
  rw [lt_iff]
  unfold midnight ofSeconds dayNumber secondsPerDay
  dsimp only
  omega

@[simp] theorem dayNumber_midnight (date : Date) : (midnight date).dayNumber = date.dayNumber := by
  unfold midnight ofSeconds dayNumber secondsPerDay
  dsimp only
  omega

theorem date_midnight (inMonth : date.InMonth) : (midnight date).date = date := by
  unfold Instant.date
  rw [dayNumber_midnight, inMonth.ofDay_dayNumber]

@[simp] theorem dayNumber_date (t : Instant) : t.date.dayNumber = t.dayNumber :=
  Date.dayNumber_ofDay _

theorem inMonth_date (t : Instant) : t.date.InMonth :=
  Date.inMonth_ofDay _

/-- The representable instants are those with a date of the calendar. -/
theorem exists_date_iff : t.date.Exists ↔ t.Representable := by
  have first : Date.daysBeforeYear Date.minYear - Date.epochDay = -96465292 := by decide
  have last : Date.daysBeforeYear (Date.maxYear + 1) - Date.epochDay = 95026237 := by decide
  unfold date
  rw [Date.exists_ofDay_iff, first, last]
  unfold Representable minSeconds maxSeconds dayNumber secondsPerDay
  omega

theorem representable_midnight_iff (inMonth : date.InMonth) :
    (midnight date).Representable ↔ date.Exists := by
  rw [← exists_date_iff, date_midnight inMonth]

/-- Time is counted from the midnight with which 1970 begins. -/
theorem midnight_epoch : midnight { year := 1970, month := 1, day := 1 } = epoch := by
  decide

/-- The date of an instant is one of the calendar, the instant lies between its midnight and the next
one, and there the date is the next date. -/
structure IsDated (t : Instant) : Prop where
  exists_date : t.date.Exists
  midnight_le : midnight t.date ≤ t
  lt_midnight_next : t < midnight t.date.next
  date_next : (midnight t.date.next).date = t.date.next

theorem Representable.isDated (shown : t.Representable) : t.IsDated where
  exists_date := exists_date_iff.2 shown
  midnight_le := midnight_le_iff.2 (Int.le_of_eq (dayNumber_date t))
  lt_midnight_next := by
    rw [lt_midnight_iff, (inMonth_date t).dayNumber_next, dayNumber_date]
    exact Int.lt_succ _
  date_next := date_midnight (inMonth_date t).next

end Midnights

end Instant

/-! ## Windows -/

/-- The date is a Monday. -/
def Date.IsMonday (date : Date) : Prop :=
  daysSinceMonday date.dayNumber = 0

instance (date : Date) : Decidable date.IsMonday :=
  inferInstanceAs (Decidable (_ = _))

namespace Period

/-- What the first date of a window has to be on a date: for a week, the Monday at most six days back. -/
def BeginsOn (period : Period) (today first : Date) : Prop :=
  match period with
  | .day => first = today
  | .week => first.IsMonday ∧ first.dayNumber ≤ today.dayNumber ∧ today.dayNumber < first.dayNumber + 7
  | .month => first = { today with day := 1 }
  | .year => first = { today with month := 1, day := 1 }
  | .all => first = { year := 1970, month := 1, day := 1 }

/-- The first date of the window that a period has on a date. -/
def firstDate (period : Period) (today : Date) : Date :=
  match period with
  | .day => today
  | .week => Date.ofDay (today.dayNumber - Date.daysSinceMonday today.dayNumber)
  | .month => today.firstOfMonth
  | .year => today.firstOfYear
  | .all => { year := 1970, month := 1, day := 1 }

section FirstDate

variable {period : Period} {today first : Date} {day day' : Int}

theorem dayNumber_firstDate_week (today : Date) :
    (Period.week.firstDate today).dayNumber =
      today.dayNumber - Date.daysSinceMonday today.dayNumber :=
  Date.dayNumber_ofDay _

theorem beginsOn_firstDate (period : Period) (today : Date) :
    period.BeginsOn today (period.firstDate today) := by
  cases period with
  | week => exact Date.eq_monday_iff.1 (dayNumber_firstDate_week today)
  | day | month | year | all => rfl

/-- No other date of the calendar will do. -/
theorem BeginsOn.eq_firstDate (begins : period.BeginsOn today first) (inMonth : first.InMonth) :
    first = period.firstDate today := by
  cases period with
  | week =>
    have number := Date.eq_monday_iff.2 begins
    refine inMonth.eq_of_dayNumber (Date.inMonth_ofDay _) ?_
    exact number.trans (dayNumber_firstDate_week today).symm
  | day | month | year | all => exact begins

theorem inMonth_firstDate (inMonth : today.InMonth) : (period.firstDate today).InMonth := by
  cases period with
  | day => exact inMonth
  | week => exact Date.inMonth_ofDay _
  | month => exact inMonth.firstOfMonth
  | year => exact Date.inMonth_firstOfYear today
  | all => exact Date.inMonth_firstOfYear { year := 1970, month := 1, day := 1 }

theorem exists_firstDate (shown : today.Exists) (other : period ≠ .week) :
    (period.firstDate today).Exists := by
  obtain ⟨years, inMonth⟩ := Date.exists_iff.1 shown
  refine Date.exists_iff.2 ⟨?_, inMonth_firstDate inMonth⟩
  cases period with
  | day | month | year => exact years
  | week => exact absurd rfl other
  | all =>
    have years : Date.minYear ≤ 1970 ∧ 1970 ≤ Date.maxYear := by decide
    exact years

theorem dayNumber_firstDate_le (bounded : period ≠ .all) (day : Int) :
    (period.firstDate (Date.ofDay day)).dayNumber ≤ day := by
  cases period with
  | day => exact Int.le_of_eq (Date.dayNumber_ofDay day)
  | week =>
    obtain ⟨-, low, -⟩ := beginsOn_firstDate .week (Date.ofDay day)
    rwa [Date.dayNumber_ofDay] at low
  | month => exact ((Date.inMonth_ofDay day).mem_month_iff.2 ⟨rfl, rfl⟩).1
  | year => exact (Date.mem_year_iff.2 rfl).1
  | all => exact absurd rfl bounded

/-- From the first day of a window on, the first date stays the same. -/
theorem firstDate_eq_of_le (bounded : period ≠ .all)
    (begun : (period.firstDate (Date.ofDay day)).dayNumber ≤ day') (le : day' ≤ day) :
    period.firstDate (Date.ofDay day') = period.firstDate (Date.ofDay day) := by
  cases period with
  | day =>
    unfold firstDate at begun ⊢
    dsimp only at begun ⊢
    rw [Date.dayNumber_ofDay] at begun
    rw [Int.le_antisymm le begun]
  | week =>
    obtain ⟨monday, -, high⟩ := beginsOn_firstDate .week (Date.ofDay day)
    rw [Date.dayNumber_ofDay] at high
    have begins : Period.week.BeginsOn (Date.ofDay day') (Period.week.firstDate (Date.ofDay day)) := by
      refine ⟨monday, ?_, ?_⟩
      · rwa [Date.dayNumber_ofDay]
      · rw [Date.dayNumber_ofDay]
        exact Int.lt_of_le_of_lt le high
    exact (begins.eq_firstDate (Date.inMonth_ofDay _)).symm
  | month =>
    have inMonth := Date.inMonth_ofDay day
    have ends := (inMonth.mem_month_iff.2 ⟨rfl, rfl⟩).2
    obtain ⟨year, month⟩ := inMonth.mem_month_iff.1 ⟨begun, Int.lt_of_le_of_lt le ends⟩
    unfold firstDate Date.firstOfMonth
    dsimp only
    rw [year, month]
  | year =>
    have ends := (Date.mem_year_iff.2 (rfl : (Date.ofDay day).year = (Date.ofDay day).year)).2
    have year := Date.mem_year_iff.1 ⟨begun, Int.lt_of_le_of_lt le ends⟩
    unfold firstDate Date.firstOfYear
    dsimp only
    rw [year]
  | all => exact absurd rfl bounded

/-- Windows of later days begin later, or at the same time. -/
theorem dayNumber_firstDate_mono (bounded : period ≠ .all) (le : day ≤ day') :
    (period.firstDate (Date.ofDay day)).dayNumber ≤
      (period.firstDate (Date.ofDay day')).dayNumber := by
  rcases Int.le_total (period.firstDate (Date.ofDay day')).dayNumber day with begun | ahead
  · exact Int.le_of_eq (congrArg Date.dayNumber (firstDate_eq_of_le bounded begun le))
  · exact Int.le_trans (dayNumber_firstDate_le bounded day) ahead

end FirstDate

section Windows

variable {period : Period} {now start : Instant}

/-- A window begins at midnight of its first date, if the calendar has that. -/
theorem windowStart?_eq (shown : now.Representable) (period : Period) :
    period.windowStart? now =
      if (period.firstDate now.date).Exists then some (.midnight (period.firstDate now.date))
      else none := by
  by_cases week : period = .week
  · have inMonth : (Period.week.firstDate now.date).InMonth :=
      inMonth_firstDate (Instant.inMonth_date now)
    have same : Instant.ofSeconds ((now.dayNumber - Date.daysSinceMonday now.dayNumber) *
        Instant.secondsPerDay) = .midnight (Period.week.firstDate now.date) := by
      unfold Instant.midnight
      rw [dayNumber_firstDate_week, Instant.dayNumber_date]
    subst week
    unfold windowStart? Instant.ofSeconds?
    dsimp only
    rw [same]
    simp only [Instant.representable_midnight_iff inMonth]
  · rw [if_pos (exists_firstDate shown.isDated.exists_date week)]
    cases period with
    | day | month | year => rfl
    | week => exact absurd rfl week
    | all => exact congrArg some Instant.midnight_epoch.symm

theorem windowStart?_eq_some (shown : now.Representable) :
    period.windowStart? now = some start ↔
      (period.firstDate now.date).Exists ∧ start = .midnight (period.firstDate now.date) := by
  rw [windowStart?_eq shown]
  split
  · next dated => simp [dated, eq_comm]
  · next none => simp [none]

/-- An instant is the start of the window of a period at another: it is a midnight, not later, and of
the right date; all instants from it on have it in common, and later instants have none before it. -/
structure IsWindow (period : Period) (now start : Instant) : Prop where
  given : period.windowStart? now = some start
  midnight : start = .midnight start.date
  le_now : start ≤ now
  begins : period.BeginsOn now.date start.date
  constant : ∀ t : Instant, start ≤ t → t ≤ now → period.windowStart? t = some start
  mono : ∀ later : Instant, later.Representable → now ≤ later →
    ∃ start', period.windowStart? later = some start' ∧ start ≤ start'

/-- What lies between two representable instants is representable. -/
theorem representable_of_between {first t last : Instant} (low : first.Representable)
    (high : last.Representable) (after : first ≤ t) (before : t ≤ last) : t.Representable := by
  rw [Instant.le_iff] at after before
  exact ⟨Int.le_trans low.1 (by omega), Int.le_trans (by omega) high.2⟩

theorem isWindow_midnight (shown : now.Representable) (bounded : period ≠ .all)
    (dated : (period.firstDate now.date).Exists) :
    period.IsWindow now (.midnight (period.firstDate now.date)) := by
  have inMonth : (period.firstDate now.date).InMonth :=
    inMonth_firstDate (Instant.inMonth_date now)
  have here := Instant.date_midnight inMonth
  have le_now : Instant.midnight (period.firstDate now.date) ≤ now :=
    Instant.midnight_le_iff.2 (dayNumber_firstDate_le bounded _)
  constructor
  case given => exact (windowStart?_eq_some shown).2 ⟨dated, rfl⟩
  case midnight => rw [here]
  case le_now => exact le_now
  case begins =>
    rw [here]
    exact beginsOn_firstDate period now.date
  case constant =>
    intro t begun le
    have between := representable_of_between ((Instant.representable_midnight_iff inMonth).2 dated)
      shown begun le
    have same : period.firstDate t.date = period.firstDate now.date :=
      firstDate_eq_of_le bounded (Instant.midnight_le_iff.1 begun) (Instant.dayNumber_mono le)
    rw [windowStart?_eq_some between, same]
    exact ⟨dated, rfl⟩
  case mono =>
    intro later shown' le
    have ahead : (period.firstDate now.date).dayNumber ≤ (period.firstDate later.date).dayNumber :=
      dayNumber_firstDate_mono bounded (Instant.dayNumber_mono le)
    have between : (Instant.midnight (period.firstDate later.date)).Representable := by
      refine representable_of_between ((Instant.representable_midnight_iff inMonth).2 dated) shown'
        (Instant.midnight_le_iff.2 ?_) (Instant.midnight_le_iff.2 (dayNumber_firstDate_le bounded _))
      rwa [Instant.dayNumber_midnight]
    refine ⟨_, (windowStart?_eq_some shown').2 ⟨?_, rfl⟩, Instant.midnight_le_iff.2 ?_⟩
    · rwa [← Instant.representable_midnight_iff (inMonth_firstDate (Instant.inMonth_date later))]
    · rwa [Instant.dayNumber_midnight]

/-- A shorter period has its window inside that of a longer one. -/
inductive Within : Period → Period → Prop
  | month_year : Within .month .year
  | day_month : Within .day .month
  | day_week : Within .day .week

theorem Within.start_le {shorter longer : Period} {start' : Instant} (within : Within shorter longer)
    (shown : now.Representable) (long : longer.windowStart? now = some start)
    (short : shorter.windowStart? now = some start') : start ≤ start' := by
  obtain ⟨-, rfl⟩ := (windowStart?_eq_some shown).1 long
  obtain ⟨-, rfl⟩ := (windowStart?_eq_some shown).1 short
  rw [Instant.midnight_le_iff, Instant.dayNumber_midnight]
  cases within with
  | month_year =>
    have first := (Instant.inMonth_date now).firstOfMonth
    exact (Date.mem_year_iff.2 (congrArg Date.year first.ofDay_dayNumber)).1
  | day_month =>
    have first : now.date.firstOfMonth.dayNumber ≤ now.dayNumber :=
      dayNumber_firstDate_le (show Period.month ≠ .all by decide) now.dayNumber
    exact Int.le_trans first (Int.le_of_eq (Instant.dayNumber_date now).symm)
  | day_week =>
    have first : (Period.week.firstDate now.date).dayNumber ≤ now.dayNumber :=
      dayNumber_firstDate_le (show Period.week ≠ .all by decide) now.dayNumber
    exact Int.le_trans first (Int.le_of_eq (Instant.dayNumber_date now).symm)

end Windows

end Period

/-! ## Months -/

namespace Instant

section Months

variable {t now : Instant}

theorem startOfMonth_eq_of_date (year : t.date.year = now.date.year)
    (month : t.date.month = now.date.month) : t.startOfMonth = now.startOfMonth := by
  unfold startOfMonth Date.firstOfMonth
  rw [year, month]

theorem firstOfNextMonth_eq_of_date (year : t.date.year = now.date.year)
    (month : t.date.month = now.date.month) :
    t.date.firstOfNextMonth = now.date.firstOfNextMonth := by
  unfold Date.firstOfNextMonth
  rw [year, month]

theorem startOfNextMonth_eq (more : now.date.firstOfNextMonth.Exists) :
    now.startOfNextMonth = midnight now.date.firstOfNextMonth := by
  unfold startOfNextMonth
  dsimp only
  rw [if_pos more]

/-- An instant lies between the bounds of a month if its date is in the month. -/
theorem inMonthOf_iff (more : now.date.firstOfNextMonth.Exists) :
    t.InMonthOf now ↔ t.date.year = now.date.year ∧ t.date.month = now.date.month := by
  unfold InMonthOf startOfMonth
  rw [startOfNextMonth_eq more, midnight_le_iff, lt_midnight_iff]
  exact (inMonth_date now).mem_month_iff

/-- The bounds of a month hold its instants and no others, and the upper one begins the next month. -/
structure MonthBounds (now : Instant) : Prop where
  start_le : now.startOfMonth ≤ now
  lt_next : now < now.startOfNextMonth
  date_next : now.startOfNextMonth.date = now.date.firstOfNextMonth
  start_next : now.startOfNextMonth.startOfMonth = now.startOfNextMonth
  shared : ∀ t : Instant, now.startOfMonth ≤ t → t < now.startOfNextMonth →
    t.startOfMonth = now.startOfMonth ∧ t.startOfNextMonth = now.startOfNextMonth
  tiles : ∀ t : Instant,
    t.InMonthOf now ↔ t.date.year = now.date.year ∧ t.date.month = now.date.month

theorem monthBounds (more : now.date.firstOfNextMonth.Exists) : now.MonthBounds := by
  obtain ⟨start_le, lt_next⟩ := (inMonthOf_iff more).2 ⟨rfl, rfl⟩
  have first := (Date.exists_iff.1 more).2
  have date_next : now.startOfNextMonth.date = now.date.firstOfNextMonth := by
    rw [startOfNextMonth_eq more, date_midnight first]
  constructor
  case start_le => exact start_le
  case lt_next => exact lt_next
  case date_next => exact date_next
  case start_next =>
    have itself : now.date.firstOfNextMonth.firstOfMonth = now.date.firstOfNextMonth := by
      unfold Date.firstOfNextMonth
      split <;> rfl
    unfold startOfMonth
    rw [date_next, itself, startOfNextMonth_eq more]
  case shared =>
    intro t begun ahead
    obtain ⟨year, month⟩ := (inMonthOf_iff more).1 ⟨begun, ahead⟩
    have next := firstOfNextMonth_eq_of_date year month
    have more' : t.date.firstOfNextMonth.Exists := by rwa [next]
    refine ⟨startOfMonth_eq_of_date year month, ?_⟩
    rw [startOfNextMonth_eq more', startOfNextMonth_eq more, next]
  case tiles => exact fun t => inMonthOf_iff more

end Months

end Instant

/-- A representable instant has a date of the calendar. The window of a day, week, month or year begins
at midnight of the first date of that day, week, month or year, for all instants from then on, never
later for an earlier instant, and for a longer period not after that of a shorter one; only a week may
have begun before the calendar does. Where the calendar has a next month, the bounds of months cut the
time line into the months. -/
theorem windows_follow_calendar {now : Instant} (shown : now.Representable) :
    now.IsDated ∧
      (∀ period : Period, period ≠ .all →
        (period = .week → ∃ monday : Date, monday.Exists ∧ period.BeginsOn now.date monday) →
        ∃ start, period.IsWindow now start) ∧
      (∀ shorter longer : Period, Period.Within shorter longer → ∀ start start',
        longer.windowStart? now = some start → shorter.windowStart? now = some start' →
        start ≤ start') ∧
      (now.date.firstOfNextMonth.Exists → now.MonthBounds) := by
  refine ⟨shown.isDated, ?_, fun _ _ within _ _ => within.start_le shown, Instant.monthBounds⟩
  intro period bounded begun
  refine ⟨_, Period.isWindow_midnight shown bounded ?_⟩
  by_cases week : period = .week
  · obtain ⟨monday, dated, begins⟩ := begun week
    exact begins.eq_firstDate (Date.exists_iff.1 dated).2 ▸ dated
  · exact Period.exists_firstDate shown.isDated.exists_date week

/-- In a leap second at the end of a leap year. -/
def Instant.lastOfYear : Instant where
  seconds := 1735689599
  nanos := 1500000000

theorem windows_follow_calendar_lastOfYear :
    Instant.lastOfYear.Representable ∧
      (∃ start, Period.week.IsWindow .lastOfYear start ∧
        start.date = { year := 2024, month := 12, day := 30 }) ∧
      Instant.lastOfYear.MonthBounds ∧
      Instant.lastOfYear.startOfNextMonth.date = { year := 2025, month := 1, day := 1 } := by
  have shown : Instant.lastOfYear.Representable := by decide
  obtain ⟨-, windows, -, months⟩ := windows_follow_calendar shown
  have monday : Period.week.BeginsOn Instant.lastOfYear.date
      { year := 2024, month := 12, day := 30 } := ⟨by decide, by decide, by decide⟩
  obtain ⟨start, window⟩ := windows .week (by decide) fun _ => ⟨_, by decide, monday⟩
  have given := window.given
  have found : Period.week.windowStart? .lastOfYear = some (.ofSeconds 1735516800) := by decide
  rw [found] at given
  cases given
  exact ⟨shown, ⟨_, window, by decide⟩, months (by decide), by decide⟩

/-- The calendar begins on a Thursday, whose week has no first instant. -/
example : Period.week.windowStart? (.ofSeconds Instant.minSeconds) = none := by decide

end ExpenseLedger
