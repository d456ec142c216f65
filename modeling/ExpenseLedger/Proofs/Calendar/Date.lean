import ExpenseLedger.Calendar.Date

/-!
# Counting days

The years follow each other without a gap, and so do the months of a year, so a day number belongs
to one year, one month and one day: `Date.dayNumber` and `Date.ofDay` are inverse to each other on
the dates of the calendar.

What a period needs of its dates is which day numbers lie in a month and in a year:
`Date.InMonth.mem_month_iff` and `Date.mem_year_iff`.
-/

namespace ExpenseLedger
namespace Date

/-- The date is one of its month, whatever the year. -/
def InMonth (date : Date) : Prop :=
  1 ≤ date.day ∧ date.day ≤ daysInMonth (isLeapYear date.year) date.month

theorem exists_iff {date : Date} :
    date.Exists ↔ (minYear ≤ date.year ∧ date.year ≤ maxYear) ∧ date.InMonth :=
  and_assoc.symm

/-- The date after a date: the next day of its month, or else the first of the next month. -/
def next (date : Date) : Date :=
  if date.day < daysInMonth (isLeapYear date.year) date.month then
    { date with day := date.day + 1 }
  else
    date.firstOfNextMonth

/-! ## Years -/

section Years

variable {year year' day : Int}

def daysInYear (leap : Bool) : Nat :=
  if leap then 366 else 365

theorem daysBeforeYear_succ (year : Int) :
    daysBeforeYear (year + 1) = daysBeforeYear year + daysInYear (isLeapYear year) := by
  unfold daysInYear
  simp only [daysBeforeYear]
  cases leap : isLeapYear year <;>
    simp only [isLeapYear, Bool.and_eq_true, Bool.or_eq_true, Bool.and_eq_false_iff,
      Bool.or_eq_false_iff, beq_iff_eq, bne_iff_ne, beq_eq_false_iff_ne, bne_eq_false_iff_eq] at leap
  · simp only [Bool.false_eq_true, if_false]
    omega
  · simp only [if_true]
    omega

theorem daysBeforeYear_mono (h : year ≤ year') : daysBeforeYear year ≤ daysBeforeYear year' := by
  simp only [daysBeforeYear]
  omega

/-- The mean length of a year is off by less than a day where it is used to guess the year. -/
theorem yearOfDay_bounds (day : Int) :
    daysBeforeYear (yearOfDay day) ≤ day ∧ day < daysBeforeYear (yearOfDay day + 1) := by
  unfold yearOfDay
  dsimp only
  split
  · next early =>
    simp only [daysBeforeYear] at early ⊢
    omega
  · split
    · next late =>
      simp only [daysBeforeYear] at late ⊢
      omega
    · omega

theorem yearOfDay_eq_iff :
    yearOfDay day = year ↔ daysBeforeYear year ≤ day ∧ day < daysBeforeYear (year + 1) := by
  have bounds := yearOfDay_bounds day
  refine ⟨fun same => same ▸ bounds, fun inside => ?_⟩
  rcases Int.lt_trichotomy (yearOfDay day) year with before | same | after
  · have := daysBeforeYear_mono (show yearOfDay day + 1 ≤ year from before)
    omega
  · exact same
  · have := daysBeforeYear_mono (show year + 1 ≤ yearOfDay day from after)
    omega

end Years

/-! ## Months -/

section Months

variable {leap : Bool} {month month' dayOfYear : Nat}

theorem daysBeforeMonth_succ (leap : Bool) (some : 1 ≤ month) :
    daysBeforeMonth leap (month + 1) = daysBeforeMonth leap month + daysInMonth leap month := by
  cases month with
  | zero => omega
  | succ month => rfl

theorem daysBeforeMonth_mono (leap : Bool) (h : month ≤ month') :
    daysBeforeMonth leap month ≤ daysBeforeMonth leap month' := by
  induction month' with
  | zero => simp [Nat.le_zero.1 h]
  | succ month' ih =>
    rcases Nat.lt_or_eq_of_le h with before | same
    · cases month' with
      | zero =>
        rw [Nat.lt_one_iff.1 before]
        exact Nat.zero_le _
      | succ month' =>
        have := ih (by omega)
        rw [daysBeforeMonth_succ leap (by omega)]
        omega
    · simp [same]

theorem daysBeforeMonth_thirteen (leap : Bool) : daysBeforeMonth leap 13 = daysInYear leap := by
  cases leap <;> rfl

theorem month_of_daysInMonth_pos (h : 0 < daysInMonth leap month) : 1 ≤ month ∧ month ≤ 12 := by
  unfold daysInMonth at h
  split at h <;> omega

theorem daysInMonth_pos (low : 1 ≤ month) (high : month ≤ 12) : 0 < daysInMonth leap month := by
  have all : ∀ leap : Bool, ∀ month ≤ 12, 1 ≤ month → 0 < daysInMonth leap month := by decide
  exact all leap month high low

/-- The month that is found from `month` down holds the day, if the day is before the end of `month`. -/
theorem monthOfDay_bounds (some : 1 ≤ month) (inside : dayOfYear < daysBeforeMonth leap (month + 1)) :
    1 ≤ monthOfDay leap dayOfYear month ∧ monthOfDay leap dayOfYear month ≤ month ∧
      daysBeforeMonth leap (monthOfDay leap dayOfYear month) ≤ dayOfYear ∧
      dayOfYear < daysBeforeMonth leap (monthOfDay leap dayOfYear month + 1) := by
  induction month with
  | zero => omega
  | succ month ih =>
    unfold monthOfDay
    split
    · next begun => exact ⟨some, Nat.le_refl _, begun, inside⟩
    · next ahead =>
      have earlier : 1 ≤ month := by
        refine Nat.pos_of_ne_zero fun none => ahead ?_
        subst none
        exact Nat.zero_le _
      obtain ⟨low, high, bounds⟩ := ih earlier (by omega)
      exact ⟨low, by omega, bounds⟩

theorem eq_of_daysBeforeMonth
    (inside : daysBeforeMonth leap month ≤ dayOfYear ∧ dayOfYear < daysBeforeMonth leap (month + 1))
    (inside' : daysBeforeMonth leap month' ≤ dayOfYear ∧
      dayOfYear < daysBeforeMonth leap (month' + 1)) : month = month' := by
  rcases Nat.lt_trichotomy month month' with before | same | after
  · have := daysBeforeMonth_mono leap (show month + 1 ≤ month' from before)
    omega
  · exact same
  · have := daysBeforeMonth_mono leap (show month' + 1 ≤ month from after)
    omega

end Months

/-! ## Dates and their numbers -/

section Numbers

variable {date : Date} {day : Int}

/-- The number of the day of the year, which begins with zero. -/
def dayOfYear (date : Date) : Nat :=
  daysBeforeMonth (isLeapYear date.year) date.month + date.day - 1

theorem InMonth.month (inMonth : date.InMonth) : 1 ≤ date.month ∧ date.month ≤ 12 :=
  month_of_daysInMonth_pos (Nat.lt_of_lt_of_le inMonth.1 inMonth.2)

theorem InMonth.dayOfYear_bounds (inMonth : date.InMonth) :
    daysBeforeMonth (isLeapYear date.year) date.month ≤ date.dayOfYear ∧
      date.dayOfYear < daysBeforeMonth (isLeapYear date.year) (date.month + 1) := by
  obtain ⟨low, high⟩ := inMonth
  rw [daysBeforeMonth_succ _ (InMonth.month ⟨low, high⟩).1]
  unfold dayOfYear
  omega

theorem InMonth.dayNumber_eq (inMonth : date.InMonth) :
    date.dayNumber + epochDay = daysBeforeYear date.year + date.dayOfYear := by
  have := inMonth.1
  unfold dayNumber dayOfYear
  omega

theorem InMonth.dayOfYear_lt (inMonth : date.InMonth) :
    date.dayOfYear < daysInYear (isLeapYear date.year) := by
  have inside := inMonth.dayOfYear_bounds.2
  have last := daysBeforeMonth_mono (isLeapYear date.year)
    (show date.month + 1 ≤ 13 from Nat.succ_le_succ inMonth.month.2)
  rw [daysBeforeMonth_thirteen] at last
  omega

theorem InMonth.year_bounds (inMonth : date.InMonth) :
    daysBeforeYear date.year ≤ date.dayNumber + epochDay ∧
      date.dayNumber + epochDay < daysBeforeYear (date.year + 1) := by
  have number := inMonth.dayNumber_eq
  have inside := inMonth.dayOfYear_lt
  rw [daysBeforeYear_succ]
  omega

/-- Every number has a date, whose number it is. -/
theorem ofDay_bounds (day : Int) :
    (ofDay day).InMonth ∧ (ofDay day).dayNumber = day := by
  have year := yearOfDay_bounds (day + epochDay)
  rw [daysBeforeYear_succ] at year
  have inside : (day + epochDay - daysBeforeYear (yearOfDay (day + epochDay))).toNat <
      daysBeforeMonth (isLeapYear (yearOfDay (day + epochDay))) (12 + 1) := by
    rw [daysBeforeMonth_thirteen]
    omega
  obtain ⟨low, high, begun, ahead⟩ := monthOfDay_bounds (by decide) inside
  rw [daysBeforeMonth_succ _ low] at ahead
  constructor
  · unfold InMonth ofDay
    dsimp only
    omega
  · unfold dayNumber ofDay
    dsimp only
    omega

theorem inMonth_ofDay (day : Int) : (ofDay day).InMonth :=
  (ofDay_bounds day).1

@[simp] theorem dayNumber_ofDay (day : Int) : (ofDay day).dayNumber = day :=
  (ofDay_bounds day).2

/-- Two dates with one number have one year, one month and one day. -/
theorem InMonth.eq_of_dayNumber {date' : Date} (inMonth : date.InMonth) (inMonth' : date'.InMonth)
    (same : date.dayNumber = date'.dayNumber) : date = date' := by
  have years : date.year = date'.year := by
    have found := yearOfDay_eq_iff.2 inMonth.year_bounds
    have found' := yearOfDay_eq_iff.2 inMonth'.year_bounds
    rw [← found, ← found', same]
  have days : date.dayOfYear = date'.dayOfYear := by
    have number := inMonth.dayNumber_eq
    have number' := inMonth'.dayNumber_eq
    rw [years] at number
    omega
  have months : date.month = date'.month := by
    refine eq_of_daysBeforeMonth inMonth.dayOfYear_bounds ?_
    rw [days, years]
    exact inMonth'.dayOfYear_bounds
  obtain ⟨year, month, n⟩ := date
  obtain ⟨year', month', n'⟩ := date'
  cases years
  cases months
  have low := inMonth.1
  have low' := inMonth'.1
  unfold dayOfYear at days
  dsimp only at days low low'
  congr 1
  omega

theorem InMonth.ofDay_dayNumber (inMonth : date.InMonth) : ofDay date.dayNumber = date :=
  (inMonth_ofDay _).eq_of_dayNumber inMonth (dayNumber_ofDay _)

end Numbers

/-! ## Months and years as runs of days -/

section Runs

variable {date : Date} {day : Int}

theorem dayNumber_firstOfYear (date : Date) :
    date.firstOfYear.dayNumber = daysBeforeYear date.year - epochDay := by
  have january : daysBeforeMonth (isLeapYear date.year) 1 = 0 := rfl
  simp only [dayNumber, firstOfYear, january]
  omega

theorem InMonth.firstOfMonth (inMonth : date.InMonth) : date.firstOfMonth.InMonth :=
  ⟨Nat.le_refl 1, Nat.le_trans inMonth.1 inMonth.2⟩

/-- Every month has a first day. -/
theorem inMonth_first {month : Nat} (year : Int) (low : 1 ≤ month) (high : month ≤ 12) :
    InMonth { year, month, day := 1 } :=
  ⟨Nat.le_refl 1, daysInMonth_pos low high⟩

theorem inMonth_firstOfYear (date : Date) : date.firstOfYear.InMonth :=
  inMonth_first date.year (Nat.le_refl 1) (Nat.le_add_left 1 11)

theorem InMonth.firstOfNextMonth (inMonth : date.InMonth) : date.firstOfNextMonth.InMonth := by
  have months := inMonth.month
  unfold Date.firstOfNextMonth
  split
  · exact inMonth_first _ (Nat.le_refl 1) (Nat.le_add_left 1 11)
  · exact inMonth_first _ (Nat.le_succ_of_le months.1) (by omega)

/-- The day of a month is counted from the first. -/
theorem InMonth.dayNumber_firstOfMonth (inMonth : date.InMonth) :
    date.firstOfMonth.dayNumber + date.day = date.dayNumber + 1 := by
  have := inMonth.1
  unfold dayNumber Date.firstOfMonth
  dsimp only
  omega

/-- The next month begins after as many days as the month has. In December the year ends with it. -/
theorem InMonth.dayNumber_firstOfNextMonth (inMonth : date.InMonth) :
    date.firstOfNextMonth.dayNumber =
      date.firstOfMonth.dayNumber + daysInMonth (isLeapYear date.year) date.month := by
  have months := inMonth.month
  have ends := daysBeforeMonth_succ (isLeapYear date.year) months.1
  unfold Date.firstOfNextMonth Date.firstOfMonth
  split
  · next december =>
    rw [december, daysBeforeMonth_thirteen] at ends
    have turn := daysBeforeYear_succ date.year
    have january : daysBeforeMonth (isLeapYear (date.year + 1)) 1 = 0 := rfl
    simp only [dayNumber, december, january]
    omega
  · simp only [dayNumber]
    omega

/-- The days from the first of a month to the first of the next are those of the month. -/
theorem InMonth.mem_month_iff (inMonth : date.InMonth) :
    date.firstOfMonth.dayNumber ≤ day ∧ day < date.firstOfNextMonth.dayNumber ↔
      (ofDay day).year = date.year ∧ (ofDay day).month = date.month := by
  have ends := inMonth.dayNumber_firstOfNextMonth
  constructor
  · intro inside
    -- The date is written down, and its number tells that it is the one meant.
    have found : ofDay day =
        { date with day := (day - date.firstOfMonth.dayNumber).toNat + 1 } := by
      refine (inMonth_ofDay day).eq_of_dayNumber ⟨?_, ?_⟩ ?_
      · dsimp only
        omega
      · dsimp only
        omega
      · rw [dayNumber_ofDay]
        unfold dayNumber Date.firstOfMonth at inside ⊢
        dsimp only at inside ⊢
        omega
    rw [found]
    exact ⟨rfl, rfl⟩
  · rintro ⟨year, month⟩
    have inside := inMonth_ofDay day
    have number := inside.dayNumber_firstOfMonth
    have first : (ofDay day).firstOfMonth = date.firstOfMonth := by
      unfold Date.firstOfMonth
      rw [year, month]
    have last := inside.2
    have low := inside.1
    rw [year, month] at last
    rw [dayNumber_ofDay, first] at number
    omega

/-- The days from New Year to the next are those of the year. -/
theorem mem_year_iff :
    date.firstOfYear.dayNumber ≤ day ∧ day < daysBeforeYear (date.year + 1) - epochDay ↔
      (ofDay day).year = date.year := by
  have found : yearOfDay (day + epochDay) = date.year ↔ _ := yearOfDay_eq_iff
  show _ ↔ yearOfDay (day + epochDay) = date.year
  rw [found, dayNumber_firstOfYear]
  omega

/-- The days of the calendar's years are the numbers of its dates. -/
theorem exists_ofDay_iff :
    (ofDay day).Exists ↔
      daysBeforeYear minYear - epochDay ≤ day ∧ day < daysBeforeYear (maxYear + 1) - epochDay := by
  have bounds := (inMonth_ofDay day).year_bounds
  rw [dayNumber_ofDay] at bounds
  rw [exists_iff, and_iff_left (inMonth_ofDay day)]
  constructor
  · rintro ⟨low, high⟩
    have := daysBeforeYear_mono low
    have := daysBeforeYear_mono (Int.add_le_add_right high 1)
    omega
  · rintro ⟨low, high⟩
    constructor
    · refine Int.not_lt.1 fun before => ?_
      have := daysBeforeYear_mono (show (ofDay day).year + 1 ≤ minYear from before)
      omega
    · refine Int.not_lt.1 fun after => ?_
      have := daysBeforeYear_mono (show maxYear + 1 ≤ (ofDay day).year from after)
      omega

end Runs

/-! ## Weeks -/

/-- One Monday is on a day or at most six days before it. -/
theorem eq_monday_iff {day monday : Int} :
    monday = day - daysSinceMonday day ↔
      daysSinceMonday monday = 0 ∧ monday ≤ day ∧ day < monday + 7 := by
  unfold daysSinceMonday
  omega

/-! ## The next date -/

section Next

variable {date : Date}

theorem InMonth.next (inMonth : date.InMonth) : date.next.InMonth := by
  unfold Date.next
  split
  · next more => exact ⟨Nat.le_add_left 1 _, more⟩
  · exact inMonth.firstOfNextMonth

theorem InMonth.dayNumber_next (inMonth : date.InMonth) :
    date.next.dayNumber = date.dayNumber + 1 := by
  unfold Date.next
  split
  · unfold dayNumber
    dsimp only
    omega
  · next last =>
    have first := inMonth.dayNumber_firstOfMonth
    have high := inMonth.2
    rw [inMonth.dayNumber_firstOfNextMonth]
    omega

/-- The count begins with the first day of 1970. -/
example : ofDay 0 = { year := 1970, month := 1, day := 1 } := by decide

end Next

end Date
end ExpenseLedger
