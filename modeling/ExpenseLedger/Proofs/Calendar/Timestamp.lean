import ExpenseLedger.Proofs.Calendar.DateText
import ExpenseLedger.Proofs.Calendar.Period
import ExpenseLedger.Proofs.Text.Bytes

/-!
# Timestamps as text

A `Timestamp.Spelling` is what the format of RFC 3339 allows: date and time of day as local clocks show
them, a fraction of a second, and how far the local time is ahead of UTC. It denotes the one instant at
which a clock that is set to that offset shows this date and time (`Timestamp.Spelling.Denotes`).
-/

namespace ExpenseLedger

namespace Timestamp

/-! ## Offsets -/

/-- The end of a timestamp: a letter for UTC itself, or how far local time is ahead of it or behind. -/
inductive Zone where
  | utc (letter : Char) (known : letter ∈ ['Z', 'z'])
  | ahead (hours : Fin 24) (minutes : Fin 60)
  | behind (minus : Char) (known : minus ∈ ['-', '\u2212']) (hours : Fin 24) (minutes : Fin 60)

namespace Zone

/-- Hours and minutes with a colon between. -/
def distance (hours minutes : Nat) : List Char :=
  paddedDigits 2 hours ++ ':' :: paddedDigits 2 minutes

def toChars : Zone → List Char
  | utc letter _ => [letter]
  | ahead hours minutes => '+' :: distance hours minutes
  | behind minus _ hours minutes => minus :: distance hours minutes

/-- The seconds that local time is ahead of UTC. -/
def seconds : Zone → Int
  | utc _ _ => 0
  | ahead hours minutes => 3600 * hours + 60 * minutes
  | behind _ _ hours minutes => -(3600 * hours + 60 * minutes)

/-- Neither a fraction nor a number goes on with a zone. -/
theorem head_toChars (zone : Zone) :
    ∃ c tail, zone.toChars = c :: tail ∧ c ≠ '.' ∧ c.isDigit = false := by
  have letters : ∀ c ∈ ['Z', 'z'], c ≠ '.' ∧ c.isDigit = false := by simp
  have signs : ∀ c ∈ ['-', '\u2212'], c ≠ '.' ∧ c.isDigit = false := by simp
  cases zone with
  | utc letter known => exact ⟨letter, [], rfl, letters letter known⟩
  | ahead hours minutes => exact ⟨'+', distance hours minutes, rfl, by decide, rfl⟩
  | behind minus known hours minutes =>
    exact ⟨minus, distance hours minutes, rfl, signs minus known⟩

end Zone

section Offsets

variable {text rest : List Char} {offset : Int}

theorem readOffsetMagnitude_eq_ok :
    readOffsetMagnitude text = .ok (offset, rest) ↔
      ∃ (hours : Fin 24) (minutes : Fin 60), text = Zone.distance hours minutes ++ rest ∧
        offset = 3600 * hours + 60 * minutes := by
  constructor
  · intro h
    obtain ⟨⟨hours, first⟩, hoursRead, rest₁⟩ := except_bind_eq_ok.1 h
    obtain ⟨second, colon, rest₂⟩ := except_bind_eq_ok.1 rest₁
    obtain ⟨⟨minutes, third⟩, minutesRead, rest₃⟩ := except_bind_eq_ok.1 rest₂
    obtain ⟨-, rfl⟩ := twoDigits_eq_ok.1 hoursRead
    obtain rfl := oneOf_singleton_eq_ok.1 colon
    obtain ⟨-, rfl⟩ := twoDigits_eq_ok.1 minutesRead
    dsimp only at rest₃
    split at rest₃
    · cases rest₃
    · next valid =>
      cases rest₃
      refine ⟨⟨hours, by omega⟩, ⟨minutes, by omega⟩, ?_, rfl⟩
      simp [Zone.distance]
  · rintro ⟨⟨hours, early⟩, ⟨minutes, few⟩, rfl, rfl⟩
    unfold Zone.distance
    rw [List.append_assoc, List.cons_append]
    refine except_bind_eq_ok.2 ⟨_, twoDigits_eq_ok.2 ⟨by omega, rfl⟩, ?_⟩
    refine except_bind_eq_ok.2 ⟨_, oneOf_singleton_eq_ok.2 rfl, ?_⟩
    refine except_bind_eq_ok.2 ⟨_, twoDigits_eq_ok.2 ⟨by omega, rfl⟩, ?_⟩
    exact if_neg (by omega)

theorem readOffsetMagnitude_distance (hours : Fin 24) (minutes : Fin 60) (rest : List Char) :
    readOffsetMagnitude (Zone.distance hours minutes ++ rest) =
      .ok (3600 * hours + 60 * minutes, rest) :=
  readOffsetMagnitude_eq_ok.2 ⟨hours, minutes, rfl, rfl⟩

theorem readOffset_toChars (zone : Zone) (rest : List Char) :
    readOffset (zone.toChars ++ rest) = .ok (zone.seconds, rest) := by
  cases zone with
  | utc letter known =>
    have known : letter = 'Z' ∨ letter = 'z' := by simpa using known
    exact if_pos known
  | ahead hours minutes => exact readOffsetMagnitude_distance hours minutes rest
  | behind minus known hours minutes =>
    have known : minus = '-' ∨ minus = '\u2212' := by simpa using known
    have read := readOffsetMagnitude_distance hours minutes rest
    rcases known with rfl | rfl <;> exact except_bind_eq_ok.2 ⟨_, read, rfl⟩

/-- The offset that is read is the one of a zone, whichever letter or sign it is written with. -/
theorem readOffset_eq_ok :
    readOffset text = .ok (offset, rest) ↔
      ∃ zone : Zone, text = zone.toChars ++ rest ∧ offset = zone.seconds := by
  constructor
  · intro h
    cases text with
    | nil => cases h
    | cons c text =>
      rw [readOffset] at h
      by_cases letter : c = 'Z' ∨ c = 'z'
      · rw [if_pos letter] at h
        cases h
        exact ⟨.utc c (by simpa using letter), rfl, rfl⟩
      rw [if_neg letter] at h
      by_cases plus : c = '+'
      · rw [if_pos plus] at h
        obtain ⟨hours, minutes, rfl, rfl⟩ := readOffsetMagnitude_eq_ok.1 h
        rw [plus]
        exact ⟨.ahead hours minutes, rfl, rfl⟩
      rw [if_neg plus] at h
      by_cases minus : c = '-' ∨ c = '\u2212'
      · rw [if_pos minus] at h
        obtain ⟨⟨distance, _⟩, read, same⟩ := except_bind_eq_ok.1 h
        cases same
        obtain ⟨hours, minutes, rfl, rfl⟩ := readOffsetMagnitude_eq_ok.1 read
        exact ⟨.behind c (by simpa using minus) hours minutes, rfl, rfl⟩
      · rw [if_neg minus] at h
        cases h
  · rintro ⟨zone, rfl, rfl⟩
    exact readOffset_toChars zone rest

end Offsets

/-! ## The format -/

/-- A fraction of a second as it is written: nothing, or a point and digits. -/
def fractionChars (digits : List Char) : List Char :=
  if digits = [] then [] else '.' :: digits

/-- A timestamp as it is written. The second 60 is a leap second. -/
structure Spelling where
  date : Date
  dated : date.Exists
  fourDigits : 0 ≤ date.year ∧ date.year ≤ 9999
  separator : Char
  separates : separator ∈ ['T', 't', ' ']
  hour : Fin 24
  minute : Fin 60
  second : Fin 61
  fraction : List Char
  allDigits : AllDigits fraction
  zone : Zone

namespace Spelling

def toChars (s : Spelling) : List Char :=
  s.date.toChars ++ s.separator :: (paddedDigits 2 s.hour ++ ':' :: (paddedDigits 2 s.minute ++
    ':' :: (paddedDigits 2 s.second ++ (fractionChars s.fraction ++ s.zone.toChars))))

def toText (s : Spelling) : String :=
  String.ofList s.toChars

/-- The whole text, field by field. -/
theorem toChars_eq (s : Spelling) :
    s.toChars = paddedDigits 4 s.date.year.natAbs ++ '-' :: (paddedDigits 2 s.date.month ++
      '-' :: (paddedDigits 2 s.date.day ++ s.separator :: (paddedDigits 2 s.hour ++
        ':' :: (paddedDigits 2 s.minute ++ ':' :: (paddedDigits 2 s.second ++
          (fractionChars s.fraction ++ s.zone.toChars)))))) := by
  unfold toChars
  rw [Date.toChars_eq, Date.yearChars_of_fourDigits s.fourDigits.1 s.fourDigits.2]
  simp only [List.append_assoc, List.cons_append]

/-- One in a leap second, which follows second 59 without a number of its own. -/
def leap (s : Spelling) : Nat :=
  if s.second.val = 60 then 1 else 0

/-- The seconds of the day before the one that is written. -/
def ofDay (s : Spelling) : Nat :=
  3600 * s.hour + 60 * s.minute + (s.second - s.leap)

/-- The local time without its offset. -/
def instant (s : Spelling) : Instant where
  seconds := s.date.dayNumber * Instant.secondsPerDay + s.ofDay - s.zone.seconds
  nanos := s.leap * 10 ^ 9 + billionths s.fraction

end Spelling

section Format

variable {α : Type} {text rest digits : List Char} {a : α} {fault : Fault} {c : Prop} [Decidable c]

theorem unless_eq_ok {next : Unit → Except Fault α} :
    (if c then (throw fault >>= next) else next ()) = .ok a ↔ ¬c ∧ next () = .ok a := by
  by_cases fails : c
  · rw [if_pos fails]
    constructor
    · rintro ⟨⟩
    · exact fun h => absurd fails h.1
  · rw [if_neg fails, and_iff_right fails]

theorem when_eq_ok {next : Unit → Except Fault α} :
    (if c then next () else (throw fault >>= next)) = .ok a ↔ c ∧ next () = .ok a := by
  by_cases holds : c
  · rw [if_pos holds, and_iff_right holds]
  · rw [if_neg holds]
    constructor
    · rintro ⟨⟩
    · exact fun h => absurd h.1 holds

theorem exists_of_fraction {next : Nat × List Char → Except Fault α}
    (h : (match text with
      | '.' :: rest => readNanos rest >>= next
      | rest => Except.ok (0, rest) >>= next) = .ok a) :
    ∃ digits rest, AllDigits digits ∧ text = fractionChars digits ++ rest ∧
      next (billionths digits, rest) = .ok a := by
  split at h
  · obtain ⟨⟨_, rest⟩, read, done⟩ := except_bind_eq_ok.1 h
    obtain ⟨digits, nonempty, allDigits, -, rfl, rfl⟩ := readNanos_eq_ok.1 read
    refine ⟨digits, rest, allDigits, ?_, done⟩
    unfold fractionChars
    rw [if_neg nonempty, List.cons_append]
  · exact ⟨[], text, allDigits_nil, rfl, h⟩

theorem fraction_toChars {next : Nat × List Char → Except Fault α} (allDigits : AllDigits digits)
    (zone : Zone) (done : next (billionths digits, zone.toChars) = .ok a) :
    (match fractionChars digits ++ zone.toChars with
      | '.' :: rest => readNanos rest >>= next
      | rest => Except.ok (0, rest) >>= next) = .ok a := by
  obtain ⟨c, tail, same, noPoint, noDigit⟩ := zone.head_toChars
  unfold fractionChars
  by_cases none : digits = []
  · rw [if_pos none, List.nil_append]
    subst none
    split
    · next point =>
      rw [same] at point
      exact absurd (List.cons.inj point).1 noPoint
    · exact done
  · have ends : EndsNumber zone.toChars := by
      rw [same]
      exact endsNumber_cons.2 noDigit
    rw [if_neg none]
    exact except_bind_eq_ok.2 ⟨_, readNanos_append none allDigits ends, done⟩

theorem exists_of_readRfc3339 {text : String} {t : Instant} (h : readRfc3339 text = .ok t) :
    ∃ s : Spelling, text.toList = s.toChars ∧ t = s.instant := by
  unfold readRfc3339 at h
  obtain ⟨-, rest₁⟩ := unless_eq_ok.1 h
  obtain ⟨⟨year, first⟩, yearRead, rest₂⟩ := except_bind_eq_ok.1 rest₁
  obtain ⟨second, hyphen, rest₃⟩ := except_bind_eq_ok.1 rest₂
  obtain ⟨⟨month, third⟩, monthRead, rest₄⟩ := except_bind_eq_ok.1 rest₃
  obtain ⟨fourth, hyphen', rest₅⟩ := except_bind_eq_ok.1 rest₄
  obtain ⟨⟨day, fifth⟩, dayRead, rest₆⟩ := except_bind_eq_ok.1 rest₅
  obtain ⟨dated, rest₇⟩ := when_eq_ok.1 rest₆
  obtain ⟨sixth, separatorRead, rest₈⟩ := except_bind_eq_ok.1 rest₇
  obtain ⟨⟨hour, seventh⟩, hourRead, rest₉⟩ := except_bind_eq_ok.1 rest₈
  obtain ⟨eighth, colon, rest₁₀⟩ := except_bind_eq_ok.1 rest₉
  obtain ⟨⟨minute, ninth⟩, minuteRead, rest₁₁⟩ := except_bind_eq_ok.1 rest₁₀
  obtain ⟨tenth, colon', rest₁₂⟩ := except_bind_eq_ok.1 rest₁₁
  obtain ⟨⟨sec, eleventh⟩, secondRead, rest₁₃⟩ := except_bind_eq_ok.1 rest₁₂
  obtain ⟨digits, twelfth, allDigits, fraction, rest₁₄⟩ := exists_of_fraction rest₁₃
  obtain ⟨clock, rest₁₅⟩ := unless_eq_ok.1 rest₁₄
  obtain ⟨⟨offset, last⟩, offsetRead, rest₁₆⟩ := except_bind_eq_ok.1 rest₁₅
  obtain ⟨ended, result⟩ := when_eq_ok.1 rest₁₆
  obtain ⟨shortYear, inYear⟩ := fixedDigits_eq_ok.1 yearRead
  obtain ⟨-, inMonth⟩ := fixedDigits_eq_ok.1 monthRead
  obtain ⟨-, inDay⟩ := fixedDigits_eq_ok.1 dayRead
  obtain ⟨separator, separates, inSeparator⟩ := oneOf_eq_ok.1 separatorRead
  obtain ⟨-, inHour⟩ := fixedDigits_eq_ok.1 hourRead
  obtain ⟨-, inMinute⟩ := fixedDigits_eq_ok.1 minuteRead
  obtain ⟨-, inSecond⟩ := fixedDigits_eq_ok.1 secondRead
  obtain ⟨zone, inZone, rfl⟩ := readOffset_eq_ok.1 offsetRead
  refine ⟨{
    date := { year, month, day }
    dated
    fourDigits := ⟨Int.natCast_nonneg year, Int.ofNat_le.2 (Nat.le_of_lt_succ shortYear)⟩
    separator
    separates
    hour := ⟨hour, by omega⟩
    minute := ⟨minute, by omega⟩
    second := ⟨sec, by omega⟩
    fraction := digits
    allDigits
    zone }, ?_, ?_⟩
  · rw [Spelling.toChars_eq, inYear, oneOf_singleton_eq_ok.1 hyphen, inMonth,
      oneOf_singleton_eq_ok.1 hyphen', inDay, inSeparator, inHour, oneOf_singleton_eq_ok.1 colon,
      inMinute, oneOf_singleton_eq_ok.1 colon', inSecond, fraction, inZone,
      List.isEmpty_iff.1 ended, List.append_nil]
    rfl
  · cases result
    rfl

theorem readRfc3339_toText (s : Spelling) : readRfc3339 s.toText = .ok s.instant := by
  have whole : s.toText.toList = s.toChars := String.toList_ofList
  rw [Spelling.toChars_eq] at whole
  have size : ¬s.toText.utf8ByteSize < 19 := by
    have bytes := length_le_utf8ByteSize s.toText
    rw [whole] at bytes
    simp only [List.length_append, List.length_cons, length_paddedDigits] at bytes
    omega
  generalize s.toText = text at whole size
  obtain ⟨⟨year, month, day⟩, dated, fourDigits, separator, separates, hour, minute, second, fraction,
    allDigits, zone⟩ := s
  obtain ⟨year, rfl⟩ := Int.eq_ofNat_of_zero_le fourDigits.1
  obtain ⟨shortMonth, shortDay⟩ := Date.month_day_lt dated
  have shortYear : year < 10 ^ 4 := Nat.lt_succ_of_le (Int.ofNat_le.1 fourDigits.2)
  have shortHour : hour.val < 10 ^ 2 := Nat.lt_trans hour.isLt (by decide)
  have shortMinute : minute.val < 10 ^ 2 := Nat.lt_trans minute.isLt (by decide)
  have shortSecond : second.val < 10 ^ 2 := Nat.lt_trans second.isLt (by decide)
  have clock : ¬(24 ≤ hour.val ∨ 60 ≤ minute.val ∨ 61 ≤ second.val) := by omega
  have zoneRead := readOffset_toChars zone []
  rw [List.append_nil] at zoneRead
  unfold readRfc3339
  refine unless_eq_ok.2 ⟨size, ?_⟩
  refine except_bind_eq_ok.2 ⟨_, fixedDigits_eq_ok.2 ⟨shortYear, whole⟩, ?_⟩
  refine except_bind_eq_ok.2 ⟨_, oneOf_singleton_eq_ok.2 rfl, ?_⟩
  refine except_bind_eq_ok.2 ⟨_, fixedDigits_eq_ok.2 ⟨shortMonth, rfl⟩, ?_⟩
  refine except_bind_eq_ok.2 ⟨_, oneOf_singleton_eq_ok.2 rfl, ?_⟩
  refine except_bind_eq_ok.2 ⟨_, fixedDigits_eq_ok.2 ⟨shortDay, rfl⟩, ?_⟩
  refine when_eq_ok.2 ⟨dated, ?_⟩
  refine except_bind_eq_ok.2 ⟨_, oneOf_eq_ok.2 ⟨separator, separates, rfl⟩, ?_⟩
  refine except_bind_eq_ok.2 ⟨_, fixedDigits_eq_ok.2 ⟨shortHour, rfl⟩, ?_⟩
  refine except_bind_eq_ok.2 ⟨_, oneOf_singleton_eq_ok.2 rfl, ?_⟩
  refine except_bind_eq_ok.2 ⟨_, fixedDigits_eq_ok.2 ⟨shortMinute, rfl⟩, ?_⟩
  refine except_bind_eq_ok.2 ⟨_, oneOf_singleton_eq_ok.2 rfl, ?_⟩
  refine except_bind_eq_ok.2 ⟨_, fixedDigits_eq_ok.2 ⟨shortSecond, rfl⟩, ?_⟩
  refine fraction_toChars allDigits zone ?_
  refine unless_eq_ok.2 ⟨clock, ?_⟩
  refine except_bind_eq_ok.2 ⟨_, zoneRead, ?_⟩
  exact if_pos rfl

/-- The reader accepts what the format allows, and nothing else. -/
theorem readRfc3339_eq_ok {text : String} {t : Instant} :
    readRfc3339 text = .ok t ↔ ∃ s : Spelling, text = s.toText ∧ t = s.instant := by
  constructor
  · intro h
    obtain ⟨s, same, instant⟩ := exists_of_readRfc3339 h
    refine ⟨s, ?_, instant⟩
    unfold Spelling.toText
    rw [← same, String.ofList_toList]
  · rintro ⟨s, rfl, rfl⟩
    exact readRfc3339_toText s

end Format

end Timestamp

/-! ## What a spelling denotes -/

namespace Instant

/-- The instant a number of seconds later. -/
def later (t : Instant) (seconds : Int) : Instant :=
  { t with seconds := t.seconds + seconds }

/-- The seconds of the day before the one in which the instant lies. -/
def secondOfDay (t : Instant) : Int :=
  t.seconds % secondsPerDay

end Instant

namespace Timestamp
namespace Spelling

/-- A clock in UTC would show the date and the time of day that are written if it were ahead by the
offset that is written; and the fraction of the second is the one that is written. -/
structure Denotes (s : Spelling) (t : Instant) : Prop where
  date : (t.later s.zone.seconds).date = s.date
  clock : (t.later s.zone.seconds).secondOfDay = s.ofDay
  nanos : t.nanos = s.leap * 10 ^ 9 + billionths s.fraction

section Denoting

variable {s s' : Spelling} {t : Instant}

theorem ofDay_lt (s : Spelling) : s.ofDay < 86400 := by
  have := s.hour.isLt
  have := s.minute.isLt
  have := s.second.isLt
  unfold ofDay leap
  split <;> omega

theorem denotes_instant (s : Spelling) : s.Denotes s.instant := by
  have below := s.ofDay_lt
  have inMonth := (Date.exists_iff.1 s.dated).2
  have ahead : (s.instant.later s.zone.seconds).seconds = s.date.dayNumber * 86400 + s.ofDay := by
    unfold Instant.later instant Instant.secondsPerDay
    dsimp only
    omega
  constructor
  case date =>
    have day : (s.instant.later s.zone.seconds).dayNumber = s.date.dayNumber := by
      unfold Instant.dayNumber Instant.secondsPerDay
      rw [ahead]
      omega
    unfold Instant.date
    rw [day, inMonth.ofDay_dayNumber]
  case clock =>
    unfold Instant.secondOfDay Instant.secondsPerDay
    rw [ahead]
    omega
  case nanos => rfl

/-- There is one such instant. -/
theorem denotes_iff : s.Denotes t ↔ t = s.instant := by
  constructor
  · rintro ⟨date, clock, nanos⟩
    have day : (t.later s.zone.seconds).dayNumber = s.date.dayNumber := by
      rw [← date, Instant.dayNumber_date]
    obtain ⟨seconds, fraction⟩ := t
    unfold Instant.later Instant.dayNumber Instant.secondsPerDay at day
    unfold Instant.later Instant.secondOfDay Instant.secondsPerDay at clock
    unfold instant Instant.secondsPerDay
    dsimp only at day clock nanos
    rw [Instant.mk.injEq]
    constructor
    · omega
    · exact nanos
  · rintro rfl
    exact s.denotes_instant

/-- Every instant can be written with every offset at which its date has a year of four digits. -/
theorem exists_denotes (zone : Zone) (whole : t.nanos < 10 ^ 9)
    (low : 0 ≤ (t.later zone.seconds).date.year) (high : (t.later zone.seconds).date.year ≤ 9999) :
    ∃ s : Spelling, s.zone = zone ∧ s.Denotes t := by
  have years : Date.minYear ≤ 0 ∧ 9999 ≤ Date.maxYear := by decide
  have inMonth := Instant.inMonth_date (t.later zone.seconds)
  have early : 0 ≤ (t.later zone.seconds).secondOfDay := Int.emod_nonneg _ (by decide)
  have late : (t.later zone.seconds).secondOfDay < 86400 := Int.emod_lt_of_pos _ (by decide)
  have number : billionths (paddedDigits 9 t.nanos) = t.nanos := by
    unfold billionths
    rw [numberOf_paddedDigits, length_paddedDigits, Nat.mod_eq_of_lt whole]
    exact Nat.mul_div_cancel _ (by decide)
  refine ⟨{
    date := (t.later zone.seconds).date
    dated := Date.exists_iff.2 ⟨⟨by omega, by omega⟩, inMonth⟩
    fourDigits := ⟨low, high⟩
    separator := 'T'
    separates := List.mem_cons_self
    hour := ⟨(t.later zone.seconds).secondOfDay.toNat / 3600, by omega⟩
    minute := ⟨(t.later zone.seconds).secondOfDay.toNat / 60 % 60, by omega⟩
    second := ⟨(t.later zone.seconds).secondOfDay.toNat % 60, by omega⟩
    fraction := paddedDigits 9 t.nanos
    allDigits := allDigits_paddedDigits 9 t.nanos
    zone }, rfl, ?_⟩
  have noLeap : (t.later zone.seconds).secondOfDay.toNat % 60 ≠ 60 := by omega
  constructor
  case date => rfl
  case clock =>
    unfold ofDay leap
    dsimp only
    rw [if_neg noLeap]
    omega
  case nanos =>
    unfold leap
    dsimp only
    rw [if_neg noLeap, number, Nat.zero_mul, Nat.zero_add]

/-- What follows a date of this form is no part of it, so that no plain date is a timestamp. -/
theorem read?_toChars_eq_none (s : Spelling) : Date.read? s.toChars = none := by
  obtain ⟨shortMonth, shortDay⟩ := Date.month_day_lt s.dated
  have years := s.fourDigits
  have none : AllBlank [] := List.forall_mem_nil _
  have separators : ∀ c ∈ ['T', 't', ' '], c.isDigit = false := by simp
  have ends (rest : List Char) : EndsNumber (s.separator :: rest) :=
    endsNumber_cons.2 (separators s.separator s.separates)
  have year : Date.NumberText 4 (paddedDigits 4 s.date.year.natAbs) s.date.year.natAbs :=
    Date.numberText_paddedDigits (by decide) (by omega)
  have yearRead := (Date.readYear?_blanks_iff (Date.endsNumber_hyphen _)).2
    ⟨[], _, none, .plain year, s.toChars_eq⟩
  have field {n : Nat} {rest : List Char} (small : n < 10 ^ 2) (ends : EndsNumber rest) :
      Date.readNumber? 2 ((paddedDigits 2 n ++ rest).dropWhile isBlank) = some (n, rest) :=
    (Date.readNumber?_blanks_iff (by decide) ends).2
      ⟨[], _, none, Date.numberText_paddedDigits (by decide) small, rfl⟩
  cases h : Date.read? s.toChars with
  | none => rfl
  | some date =>
    obtain ⟨_, yearRead', rest₁⟩ := Option.bind_eq_some_iff.1 h
    cases yearRead.symm.trans yearRead'
    obtain ⟨_, hyphen, rest₂⟩ := Option.bind_eq_some_iff.1 rest₁
    cases hyphen
    obtain ⟨_, monthRead, rest₃⟩ := Option.bind_eq_some_iff.1 rest₂
    cases (field shortMonth (Date.endsNumber_hyphen _)).symm.trans monthRead
    obtain ⟨_, hyphen', rest₄⟩ := Option.bind_eq_some_iff.1 rest₃
    cases hyphen'
    obtain ⟨_, dayRead, rest₅⟩ := Option.bind_eq_some_iff.1 rest₄
    cases (field shortDay (ends _)).symm.trans dayRead
    cases rest₅

end Denoting

/-- Midnight of a date, in UTC. -/
def midnight (date : Date) (dated : date.Exists) (fourDigits : 0 ≤ date.year ∧ date.year ≤ 9999) :
    Spelling where
  date
  dated
  fourDigits
  separator := 'T'
  separates := List.mem_cons_self
  hour := 0
  minute := 0
  second := 0
  fraction := []
  allDigits := allDigits_nil
  zone := .utc 'Z' List.mem_cons_self

section Midnight

variable {date : Date} (dated : date.Exists) (fourDigits : 0 ≤ date.year ∧ date.year ≤ 9999)

theorem toText_midnight :
    (midnight date dated fourDigits).toText = date.toText ++ "T00:00:00Z" := by
  have clock : 'T' :: (paddedDigits 2 0 ++ ':' :: (paddedDigits 2 0 ++ ':' :: (paddedDigits 2 0 ++
      (fractionChars [] ++ ['Z'])))) = "T00:00:00Z".toList := by
    decide
  have same : (midnight date dated fourDigits).toChars = date.toChars ++ "T00:00:00Z".toList :=
    congrArg (date.toChars ++ ·) clock
  unfold toText Date.toText
  rw [same, String.ofList_append, String.ofList_toList]

theorem denotes_midnight : (midnight date dated fourDigits).Denotes (.midnight date) := by
  have whole : 0 = 0 * 10 ^ 9 + billionths [] := by decide
  rw [denotes_iff]
  unfold Instant.midnight Instant.ofSeconds instant
  rw [Instant.mk.injEq]
  exact ⟨((Int.sub_zero _).trans (Int.add_zero _)).symm, whole⟩

end Midnight

end Spelling

/-! ## Both formats -/

section Reading

variable {text : String} {date : Date} {t : Instant}

/-- No text is a plain date and a timestamp at once. -/
theorem read?_eq_none_of_readRfc3339 (h : readRfc3339 text = .ok t) :
    Date.read? text.toList = none := by
  obtain ⟨s, same, -⟩ := exists_of_readRfc3339 h
  rw [same]
  exact s.read?_toChars_eq_none

theorem read_of_date (plain : Date.read? text.toList = some date) :
    read text = .ok (.midnight date) := by
  unfold read
  rw [plain]

theorem read_of_readRfc3339 (h : readRfc3339 text = .ok t) : read text = .ok t := by
  unfold read
  rw [read?_eq_none_of_readRfc3339 h]
  exact h

/-- Since no text is in both formats, it does not matter which one is tried first. -/
theorem read_eq_ok :
    read text = .ok t ↔
      (∃ date, Date.read? text.toList = some date ∧ t = .midnight date) ∨ readRfc3339 text = .ok t := by
  constructor
  · intro h
    unfold read at h
    cases plain : Date.read? text.toList with
    | some date =>
      rw [plain] at h
      cases h
      exact Or.inl ⟨date, rfl, rfl⟩
    | none =>
      rw [plain] at h
      exact Or.inr h
  · rintro (⟨date, plain, rfl⟩ | h)
    · exact read_of_date plain
    · exact read_of_readRfc3339 h

theorem read_toText (s : Spelling) : read s.toText = .ok s.instant :=
  read_of_readRfc3339 (readRfc3339_toText s)

/-- Two spellings are read alike if there is an instant that both denote. -/
theorem read_eq_read_iff {s s' : Spelling} :
    read s.toText = read s'.toText ↔ ∃ t, s.Denotes t ∧ s'.Denotes t := by
  simp only [read_toText, Except.ok.injEq, Spelling.denotes_iff]
  constructor
  · intro same
    exact ⟨s.instant, rfl, same⟩
  · rintro ⟨t, rfl, same⟩
    exact same

theorem read_date (dated : date.Exists) : read date.toText = .ok (.midnight date) := by
  apply read_of_date
  unfold Date.toText
  rw [String.toList_ofList]
  exact Date.read?_toChars dated

theorem read_date_midnight (dated : date.Exists) (fourDigits : 0 ≤ date.year ∧ date.year ≤ 9999) :
    read (date.toText ++ "T00:00:00Z") = .ok (.midnight date) := by
  have denotes := Spelling.denotes_midnight dated fourDigits
  rw [← Spelling.toText_midnight dated fourDigits, read_toText, ← Spelling.denotes_iff.1 denotes]

/-- The window of a day starts at the midnight at which the day does. -/
theorem windowStart?_midnight (dated : date.Exists) :
    Period.day.windowStart? (.midnight date) = some (.midnight date) := by
  have inMonth := (Date.exists_iff.1 dated).2
  unfold Period.windowStart?
  rw [Instant.date_midnight inMonth]

/-- A text is read if it writes a date or a timestamp, never both. A timestamp is read as the instant
that it denotes, which is the local time less the offset, and of whose fraction no digit is lost up to
the ninth; so two timestamps are read alike only when they denote one instant, and every instant can be
written with every offset. A date is read as its midnight in UTC, at which the window of its day starts,
and as it would be with this time and offset written out. -/
theorem spellings_denote_instants :
    (∀ text t, read text = .ok t ↔
      (∃ date, Date.Written text.toList date ∧ t = .midnight date) ∨
        ∃ s : Spelling, text = s.toText ∧ s.Denotes t) ∧
    (∀ (s : Spelling) date, ¬Date.Written s.toText.toList date) ∧
    (∀ s : Spelling, read s.toText = .ok s.instant ∧
      (∀ t, s.Denotes t ↔ t = s.instant) ∧
      (s.second.val ≠ 60 → s.fraction.length ≤ 9 →
        s.instant.nanos * 10 ^ s.fraction.length = numberOf s.fraction * 10 ^ 9)) ∧
    (∀ s s' : Spelling, read s.toText = read s'.toText ↔ ∃ t, s.Denotes t ∧ s'.Denotes t) ∧
    (∀ (zone : Zone) (t : Instant), t.nanos < 10 ^ 9 →
      0 ≤ (t.later zone.seconds).date.year → (t.later zone.seconds).date.year ≤ 9999 →
      ∃ s : Spelling, s.zone = zone ∧ s.Denotes t) ∧
    (∀ date : Date, date.Exists →
      read date.toText = .ok (.midnight date) ∧
      Period.day.windowStart? (.midnight date) = some (.midnight date) ∧
      (0 ≤ date.year ∧ date.year ≤ 9999 →
        read (date.toText ++ "T00:00:00Z") = .ok (.midnight date))) := by
  refine ⟨?_, ?_, ?_, fun _ _ => read_eq_read_iff, fun _ _ => Spelling.exists_denotes _, ?_⟩
  · intro text t
    rw [read_eq_ok, readRfc3339_eq_ok]
    simp only [Date.read?_eq_some, Spelling.denotes_iff]
  · intro s date written
    have none := read?_eq_none_of_readRfc3339 (readRfc3339_toText s)
    rw [written.read?] at none
    cases none
  · intro s
    refine ⟨read_toText s, fun _ => Spelling.denotes_iff, ?_⟩
    intro ordinary short
    have nanos : s.instant.nanos = billionths s.fraction := by
      unfold Spelling.instant Spelling.leap
      dsimp only
      rw [if_neg ordinary, Nat.zero_mul, Nat.zero_add]
    rw [nanos]
    exact billionths_mul short
  · intro date dated
    exact ⟨read_date dated, windowStart?_midnight dated, read_date_midnight dated⟩

end Reading

/-- The last half second of a year, where clocks are almost a day behind UTC. -/
def Spelling.newYearsEve : Spelling where
  date := { year := 2024, month := 12, day := 31 }
  dated := by decide
  fourDigits := by decide
  separator := 'T'
  separates := by decide
  hour := 23
  minute := 59
  second := 59
  fraction := ['5']
  allDigits := by decide
  zone := .behind '-' (by decide) 23 59

/-- In UTC it is the next year, and an hour ahead it is its second day. -/
theorem spellings_denote_instants_newYear :
    read "2024-12-31T23:59:59.5-23:59" = .ok { seconds := 1735775939, nanos := 500000000 } ∧
      (∃ s : Spelling, s.zone = .ahead 1 0 ∧ s.date = { year := 2025, month := 1, day := 2 } ∧
        read s.toText = read Spelling.newYearsEve.toText) ∧
      Spelling.newYearsEve.instant.nanos * 10 ^ 1 = 5 * 10 ^ 9 ∧
      read "2024-02-29" = read "2024-02-29T00:00:00Z" ∧
      read "2024-02-29" = .ok { seconds := 1709164800, nanos := 0 } := by
  obtain ⟨-, -, each, alike, every, dates⟩ := spellings_denote_instants
  obtain ⟨eve, unique, fraction⟩ := each .newYearsEve
  obtain ⟨s, zone, denotes⟩ := every (.ahead 1 0) Spelling.newYearsEve.instant (by decide)
    (by decide) (by decide)
  obtain ⟨plain, -, spelled⟩ := dates { year := 2024, month := 2, day := 29 } (by decide)
  have date : s.date = { year := 2025, month := 1, day := 2 } := by
    rw [← denotes.date, zone]
    decide
  refine ⟨eve, ⟨s, zone, date, ?_⟩, fraction (by decide) (by decide), ?_, plain⟩
  · exact (alike _ _).2 ⟨_, denotes, (unique _).2 rfl⟩
  · exact plain.trans (spelled (by decide)).symm

end Timestamp
end ExpenseLedger
