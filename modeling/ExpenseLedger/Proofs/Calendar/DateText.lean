import ExpenseLedger.Proofs.Calendar.Date
import ExpenseLedger.Proofs.Calendar.Fields

/-!
# Dates as text

`Date.Written` is the grammar of dates: year, month and day with hyphens between, of which each may have
blanks in front. The reader accepts what the grammar allows and nothing else (`Date.read?_eq_some`), and
it reads every date of the calendar back from the one text that is written for it
(`Date.read?_toChars`).
-/

namespace ExpenseLedger

/-- Nothing but blanks. -/
def AllBlank (text : List Char) : Prop :=
  ∀ c ∈ text, isBlank c = true

section Blanks

variable {c : Char} {text body : List Char}

theorem isBlank_of_isDigit (digit : c.isDigit = true) : isBlank c = false := by
  have bounds := toNat_of_isDigit digit
  exact isBlank_of_printed (by omega) (by omega)

/-- Blanks are skipped up to the first character that is none. -/
theorem dropWhile_isBlank_eq (visible : ∀ c ∈ body.head?, isBlank c = false) :
    text.dropWhile isBlank = body ↔ ∃ blanks, AllBlank blanks ∧ text = blanks ++ body := by
  constructor
  · rintro rfl
    refine ⟨text.takeWhile isBlank, ?_, List.takeWhile_append_dropWhile.symm⟩
    exact fun c member => List.mem_takeWhile_imp member
  · rintro ⟨blanks, allBlank, rfl⟩
    rw [List.dropWhile_append_of_pos allBlank]
    cases body with
    | nil => rfl
    | cons c body =>
      have visible := visible c rfl
      exact List.dropWhile_cons_of_neg (by simp [visible])

end Blanks

namespace Date

/-- A number of up to a number of digits. -/
structure NumberText (limit : Nat) (text : List Char) (n : Nat) : Prop where
  nonempty : text ≠ []
  allDigits : AllDigits text
  short : text.length ≤ limit
  number : numberOf text = n

/-- A year of up to four digits, or of any number of digits after a sign. -/
inductive YearText : List Char → Int → Prop
  | plain {text : List Char} {n : Nat} (number : NumberText 4 text n) : YearText text n
  | plus {text : List Char} {n : Nat} (number : NumberText text.length text n) :
      YearText ('+' :: text) n
  | minus {text : List Char} {n : Nat} (number : NumberText text.length text n) :
      YearText ('-' :: text) (-(n : Int))

/-- The ways to write a date of the calendar. -/
inductive Written : List Char → Date → Prop
  | intro {blanks year blanks' month blanks'' day : List Char} {date : Date} (dated : date.Exists)
      (before : AllBlank blanks) (yearText : YearText year date.year)
      (beforeMonth : AllBlank blanks') (monthText : NumberText 2 month date.month)
      (beforeDay : AllBlank blanks'') (dayText : NumberText 2 day date.day) :
      Written (blanks ++ (year ++ '-' :: (blanks' ++ (month ++ '-' :: (blanks'' ++ day))))) date

section Reading

variable {limit n : Nat} {text rest : List Char} {year : Int} {date : Date}

theorem NumberText.head (number : NumberText limit text n) :
    ∃ c tail, text = c :: tail ∧ c.isDigit = true := by
  cases text with
  | nil => exact absurd rfl number.nonempty
  | cons c tail => exact ⟨c, tail, rfl, (allDigits_cons.1 number.allDigits).1⟩

/-- What stands before the end of a number is read as a number. -/
theorem readNumber?_iff (some : 0 < limit) (ends : EndsNumber rest) :
    readNumber? limit text = .some (n, rest) ↔ ∃ front, NumberText limit front n ∧ text = front ++ rest := by
  rw [readNumber?_eq_some some]
  constructor
  · rintro ⟨digits, nonempty, ⟨allDigits, short, -⟩, same, number⟩
    exact ⟨digits, ⟨nonempty, allDigits, short, number.symm⟩, same⟩
  · rintro ⟨front, number, same⟩
    exact ⟨front, number.nonempty, ⟨number.allDigits, number.short, Or.inr ends⟩, same,
      number.number.symm⟩

/-- Blanks in front of a number are skipped. -/
theorem readNumber?_blanks_iff (some : 0 < limit) (ends : EndsNumber rest) :
    readNumber? limit (text.dropWhile isBlank) = .some (n, rest) ↔
      ∃ blanks front, AllBlank blanks ∧ NumberText limit front n ∧ text = blanks ++ (front ++ rest) := by
  rw [readNumber?_iff some ends]
  have skip {front : List Char} (number : NumberText limit front n) :=
    @dropWhile_isBlank_eq text (front ++ rest) (by
      obtain ⟨c, tail, rfl, digit⟩ := number.head
      rintro d ⟨⟩
      exact isBlank_of_isDigit digit)
  constructor
  · rintro ⟨front, number, same⟩
    obtain ⟨blanks, allBlank, whole⟩ := (skip number).1 same
    exact ⟨blanks, front, allBlank, number, whole⟩
  · rintro ⟨blanks, front, allBlank, number, whole⟩
    exact ⟨front, number, (skip number).2 ⟨blanks, allBlank, whole⟩⟩

/-- After a sign there is no limit but the text's own length. -/
theorem readNumber?_length_iff (ends : EndsNumber rest) :
    readNumber? text.length text = .some (n, rest) ↔
      ∃ front, NumberText front.length front n ∧ text = front ++ rest := by
  cases text with
  | nil =>
    constructor
    · rintro ⟨⟩
    · rintro ⟨front, number, same⟩
      exact absurd (List.append_eq_nil_iff.1 same.symm).1 number.nonempty
  | cons c text =>
    rw [readNumber?_iff (List.length_pos_of_mem List.mem_cons_self) ends]
    constructor
    · rintro ⟨front, number, same⟩
      exact ⟨front, { number with short := Nat.le_refl _ }, same⟩
    · rintro ⟨front, number, same⟩
      refine ⟨front, { number with short := ?_ }, same⟩
      rw [same, List.length_append]
      exact Nat.le_add_right _ _

theorem YearText.head {front : List Char} (yearText : YearText front year) :
    ∃ c tail, front = c :: tail ∧ isBlank c = false := by
  cases yearText with
  | plain number =>
    obtain ⟨c, tail, rfl, digit⟩ := number.head
    exact ⟨c, tail, rfl, isBlank_of_isDigit digit⟩
  | plus number => exact ⟨'+', _, rfl, rfl⟩
  | minus number => exact ⟨'-', _, rfl, rfl⟩

theorem readYear?_append {front : List Char} (ends : EndsNumber rest) (yearText : YearText front year) :
    readYear? (front ++ rest) = some (year, rest) := by
  cases yearText with
  | @plain _ n number =>
    have read : readNumber? 4 (front ++ rest) = some (n, rest) :=
      (readNumber?_iff (by decide) ends).2 ⟨front, number, rfl⟩
    obtain ⟨c, tail, rfl, digit⟩ := number.head
    unfold readYear?
    split
    · next same =>
      cases same
      cases digit
    · next same =>
      cases same
      cases digit
    · rw [read]
      rfl
  | @plus tail n number =>
    have read : readNumber? (tail ++ rest).length (tail ++ rest) = some (n, rest) :=
      (readNumber?_length_iff ends).2 ⟨tail, number, rfl⟩
    rw [List.cons_append, readYear?, read]
    rfl
  | @minus tail n number =>
    have read : readNumber? (tail ++ rest).length (tail ++ rest) = some (n, rest) :=
      (readNumber?_length_iff ends).2 ⟨tail, number, rfl⟩
    rw [List.cons_append, readYear?, read]
    rfl

theorem readYear?_iff (ends : EndsNumber rest) :
    readYear? text = .some (year, rest) ↔ ∃ front, YearText front year ∧ text = front ++ rest := by
  constructor
  · intro h
    unfold readYear? at h
    split at h
    · obtain ⟨⟨n, _⟩, read, same⟩ := Option.map_eq_some_iff.1 h
      cases same
      obtain ⟨front, number, rfl⟩ := (readNumber?_length_iff ends).1 read
      exact ⟨'-' :: front, .minus number, rfl⟩
    · obtain ⟨⟨n, _⟩, read, same⟩ := Option.map_eq_some_iff.1 h
      cases same
      obtain ⟨front, number, rfl⟩ := (readNumber?_length_iff ends).1 read
      exact ⟨'+' :: front, .plus number, rfl⟩
    · obtain ⟨⟨n, _⟩, read, same⟩ := Option.map_eq_some_iff.1 h
      cases same
      obtain ⟨front, number, rfl⟩ := (readNumber?_iff (by decide) ends).1 read
      exact ⟨front, .plain number, rfl⟩
  · rintro ⟨front, yearText, rfl⟩
    exact readYear?_append ends yearText

theorem readYear?_blanks_iff (ends : EndsNumber rest) :
    readYear? (text.dropWhile isBlank) = .some (year, rest) ↔
      ∃ blanks front, AllBlank blanks ∧ YearText front year ∧ text = blanks ++ (front ++ rest) := by
  rw [readYear?_iff ends]
  have skip {front : List Char} (yearText : YearText front year) :=
    @dropWhile_isBlank_eq text (front ++ rest) (by
      obtain ⟨c, tail, rfl, visible⟩ := yearText.head
      rintro d ⟨⟩
      exact visible)
  constructor
  · rintro ⟨front, yearText, same⟩
    obtain ⟨blanks, allBlank, whole⟩ := (skip yearText).1 same
    exact ⟨blanks, front, allBlank, yearText, whole⟩
  · rintro ⟨blanks, front, allBlank, yearText, whole⟩
    exact ⟨front, yearText, (skip yearText).2 ⟨blanks, allBlank, whole⟩⟩

theorem readHyphen?_eq_some : readHyphen? text = some rest ↔ text = '-' :: rest := by
  unfold readHyphen?
  split
  · simp
  · next other =>
    constructor
    · rintro ⟨⟩
    · exact fun same => absurd same (other rest)

theorem endsNumber_hyphen (rest : List Char) : EndsNumber ('-' :: rest) :=
  endsNumber_cons.2 rfl

theorem written_of_read? (h : read? text = some date) : Written text date := by
  obtain ⟨⟨year, first⟩, yearRead, rest₁⟩ := Option.bind_eq_some_iff.1 h
  obtain ⟨second, hyphen, rest₂⟩ := Option.bind_eq_some_iff.1 rest₁
  obtain ⟨⟨month, third⟩, monthRead, rest₃⟩ := Option.bind_eq_some_iff.1 rest₂
  obtain ⟨fourth, hyphen', rest₄⟩ := Option.bind_eq_some_iff.1 rest₃
  obtain ⟨⟨day, last⟩, dayRead, rest₅⟩ := Option.bind_eq_some_iff.1 rest₄
  rw [readHyphen?_eq_some] at hyphen hyphen'
  rw [hyphen, readYear?_blanks_iff (endsNumber_hyphen _)] at yearRead
  rw [hyphen', readNumber?_blanks_iff (by decide) (endsNumber_hyphen _)] at monthRead
  dsimp only at rest₅
  split at rest₅
  · next valid =>
    obtain ⟨none, dated⟩ := valid
    cases List.isEmpty_iff.1 none
    cases rest₅
    rw [readNumber?_blanks_iff (by decide) endsNumber_nil] at dayRead
    obtain ⟨blanks, front, before, yearText, whole⟩ := yearRead
    obtain ⟨blanks', front', beforeMonth, monthText, month⟩ := monthRead
    obtain ⟨blanks'', front'', beforeDay, dayText, day⟩ := dayRead
    rw [whole, month, day, List.append_nil]
    exact .intro dated before yearText beforeMonth monthText beforeDay dayText
  · cases rest₅

theorem Written.read? (written : Written text date) : read? text = some date := by
  cases written with
  | @intro blanks year blanks' month blanks'' day _ dated before yearText beforeMonth monthText
      beforeDay dayText =>
    refine Option.bind_eq_some_iff.2 ⟨_, (readYear?_blanks_iff (endsNumber_hyphen _)).2
      ⟨blanks, year, before, yearText, rfl⟩, ?_⟩
    refine Option.bind_eq_some_iff.2 ⟨_, readHyphen?_eq_some.2 rfl, ?_⟩
    refine Option.bind_eq_some_iff.2 ⟨_, (readNumber?_blanks_iff (by decide) (endsNumber_hyphen _)).2
      ⟨blanks', month, beforeMonth, monthText, rfl⟩, ?_⟩
    refine Option.bind_eq_some_iff.2 ⟨_, readHyphen?_eq_some.2 rfl, ?_⟩
    refine Option.bind_eq_some_iff.2 ⟨_, (readNumber?_blanks_iff (by decide) endsNumber_nil).2
      ⟨blanks'', day, beforeDay, dayText, by rw [List.append_nil]⟩, ?_⟩
    exact if_pos ⟨rfl, dated⟩

/-- The reader accepts the ways to write a date, and nothing else. -/
theorem read?_eq_some : read? text = some date ↔ Written text date :=
  ⟨written_of_read?, Written.read?⟩

theorem daysInMonth_le (leap : Bool) (month : Nat) : daysInMonth leap month ≤ 31 := by
  unfold daysInMonth
  split <;> cases leap <;> decide

/-- Two digits are enough for a month, and for a day. -/
theorem month_day_lt (dated : date.Exists) : date.month < 10 ^ 2 ∧ date.day < 10 ^ 2 := by
  have inMonth := (exists_iff.1 dated).2
  have months := inMonth.month
  have days := Nat.le_trans inMonth.2 (daysInMonth_le _ _)
  omega

theorem numberText_atLeastDigits (width n : Nat) :
    NumberText (atLeastDigits width n).length (atLeastDigits width n) n where
  nonempty := atLeastDigits_ne_nil width n
  allDigits := allDigits_atLeastDigits width n
  short := Nat.le_refl _
  number := numberOf_atLeastDigits width n

theorem numberText_paddedDigits {width : Nat} (some : 0 < width) (small : n < 10 ^ width) :
    NumberText width (paddedDigits width n) n := by
  have number := numberText_atLeastDigits width n
  rw [atLeastDigits_eq_paddedDigits some small, length_paddedDigits] at number
  exact number

/-- The year of a date as it is written. -/
def yearChars (date : Date) : List Char :=
  (if date.year < 0 then ['-'] else if 9999 < date.year then ['+'] else []) ++
    atLeastDigits 4 date.year.natAbs

theorem toChars_eq (date : Date) :
    date.toChars =
      date.yearChars ++ '-' :: (paddedDigits 2 date.month ++ '-' :: paddedDigits 2 date.day) := by
  unfold toChars yearChars
  simp only [List.append_assoc, List.cons_append]

/-- No sign is needed from 0000 to 9999. -/
theorem yearChars_of_fourDigits (low : 0 ≤ date.year) (high : date.year ≤ 9999) :
    date.yearChars = paddedDigits 4 date.year.natAbs := by
  unfold yearChars
  rw [if_neg (Int.not_lt.2 low), if_neg (Int.not_lt.2 high), List.nil_append]
  exact atLeastDigits_eq_paddedDigits (by decide) (by omega)

theorem yearText_yearChars (date : Date) : YearText date.yearChars date.year := by
  have number := numberText_atLeastDigits 4 date.year.natAbs
  have magnitude := Int.natAbs_of_nonneg (a := date.year)
  unfold yearChars
  split
  · next negative =>
    have value : -(date.year.natAbs : Int) = date.year := by omega
    have text := YearText.minus number
    rwa [value] at text
  · next natural =>
    have value : (date.year.natAbs : Int) = date.year := by omega
    split
    · have text := YearText.plus number
      rwa [value] at text
    · have small : date.year.natAbs < 10 ^ 4 := by omega
      rw [length_atLeastDigits (by decide) small] at number
      have text := YearText.plain number
      rwa [value] at text

/-- The text that is written for a date is one of them. -/
theorem written_toChars (dated : date.Exists) : Written date.toChars date := by
  obtain ⟨shortMonth, shortDay⟩ := month_day_lt dated
  have none : AllBlank [] := List.forall_mem_nil _
  have monthText := numberText_paddedDigits (by decide) shortMonth
  have dayText := numberText_paddedDigits (by decide) shortDay
  have written := Written.intro dated none (yearText_yearChars date) none monthText none dayText
  rwa [List.nil_append, List.nil_append, List.nil_append, ← toChars_eq] at written

/-- Every date of the calendar is read back from its text. -/
theorem read?_toChars (dated : date.Exists) : read? date.toChars = some date :=
  (written_toChars dated).read?

end Reading

end Date
end ExpenseLedger
