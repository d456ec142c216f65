import ExpenseLedger.Calendar.Timestamp
import ExpenseLedger.Proofs.Numeric.Numeral
import ExpenseLedger.Proofs.Outcome
import Mathlib.Data.List.TakeWhile
import Mathlib.Tactic.Ring

/-!
# Fields of a date as text

What each of the small readers takes from the front of a text, and what it leaves. A reader of a fixed
number of digits takes the padded digits of a number (`Timestamp.fixedDigits_eq_ok`); a reader of up to
a number of digits takes as many as there are (`Date.readNumber?_eq_some`).
-/

namespace ExpenseLedger

/-- The text does not go on with a digit. -/
def EndsNumber (text : List Char) : Prop :=
  ∀ c ∈ text.head?, c.isDigit = false

section Ends

variable {c : Char} {rest : List Char}

theorem endsNumber_nil : EndsNumber [] := by
  rintro c ⟨⟩

theorem endsNumber_cons : EndsNumber (c :: rest) ↔ c.isDigit = false := by
  simp [EndsNumber]

end Ends

namespace Timestamp

section Fixed

variable {count value n : Nat} {text rest digits : List Char} {choices : List Char}

theorem fixedDigits_append (allDigits : AllDigits digits) (value : Nat) (rest : List Char) :
    fixedDigits digits.length value (digits ++ rest) =
      .ok (value * 10 ^ digits.length + numberOf digits, rest) := by
  induction digits generalizing value with
  | nil => simp [fixedDigits, numberOf]
  | cons c digits ih =>
    obtain ⟨digit, allDigits⟩ := allDigits_cons.1 allDigits
    rw [List.length_cons, List.cons_append, fixedDigits, if_pos digit, ih allDigits, numberOf_cons,
      Nat.pow_succ]
    congr 2
    ring

theorem exists_of_fixedDigits (h : fixedDigits count value text = .ok (n, rest)) :
    ∃ digits, text = digits ++ rest ∧ digits.length = count ∧ AllDigits digits := by
  induction count generalizing value text with
  | zero =>
    cases h
    exact ⟨[], rfl, rfl, allDigits_nil⟩
  | succ count ih =>
    cases text with
    | nil => cases h
    | cons c text =>
      unfold fixedDigits at h
      split at h
      · next digit =>
        obtain ⟨digits, rfl, length, allDigits⟩ := ih h
        exact ⟨c :: digits, rfl, congrArg Nat.succ length, allDigits_cons.2 ⟨digit, allDigits⟩⟩
      · cases h

/-- A number with a fixed number of digits is read as it is written. -/
theorem fixedDigits_eq_ok :
    fixedDigits count 0 text = .ok (n, rest) ↔ n < 10 ^ count ∧ text = paddedDigits count n ++ rest := by
  constructor
  · intro h
    obtain ⟨digits, rfl, rfl, allDigits⟩ := exists_of_fixedDigits h
    rw [fixedDigits_append allDigits, Nat.zero_mul, Nat.zero_add] at h
    cases h
    exact ⟨numberOf_lt allDigits, by rw [paddedDigits_numberOf allDigits]⟩
  · rintro ⟨small, rfl⟩
    have read := fixedDigits_append (allDigits_paddedDigits count n) 0 rest
    rwa [length_paddedDigits, numberOf_paddedDigits, Nat.mod_eq_of_lt small, Nat.zero_mul,
      Nat.zero_add] at read

theorem oneOf_eq_ok : oneOf choices text = .ok rest ↔ ∃ c ∈ choices, text = c :: rest := by
  cases text with
  | nil => simp [oneOf]
  | cons c text =>
    unfold oneOf
    by_cases known : c ∈ choices
    · simp only [List.contains_eq_mem, known, decide_true, if_true, Except.ok.injEq,
        List.cons.injEq]
      constructor
      · rintro rfl
        exact ⟨c, known, rfl, rfl⟩
      · rintro ⟨d, -, -, rfl⟩
        rfl
    · simp only [List.contains_eq_mem, known, decide_false, Bool.false_eq_true, if_false,
        List.cons.injEq]
      constructor
      · intro h
        cases h
      · rintro ⟨d, member, rfl, -⟩
        exact absurd member known

theorem oneOf_singleton_eq_ok {c : Char} : oneOf [c] text = .ok rest ↔ text = c :: rest := by
  rw [oneOf_eq_ok]
  simp

theorem twoDigits_eq_ok :
    twoDigits text = .ok (n, rest) ↔ n < 100 ∧ text = paddedDigits 2 n ++ rest := by
  have fixed : fixedDigits 2 0 text = .ok (n, rest) ↔ n < 100 ∧ text = paddedDigits 2 n ++ rest :=
    fixedDigits_eq_ok
  have whole (long : isCut text = true) : ¬(n < 100 ∧ text = paddedDigits 2 n ++ rest) := by
    rintro ⟨-, same⟩
    rw [same] at long
    exact absurd long (by simp [paddedDigits, isCut])
  unfold twoDigits
  by_cases cut : isCut text = true
  · rw [if_pos cut]
    constructor
    · intro h
      cases h
    · exact fun h => absurd h (whole cut)
  · rw [if_neg cut, ← fixed]
    split
    · next read => rw [read]
    · next fault read =>
      rw [read]
      constructor <;> intro h <;> cases h

end Fixed

/-! ## Fractions -/

section Fractions

variable {n : Nat} {text rest digits : List Char}

/-- The fraction that digits after a point write, in billionths; what is less than one is dropped. -/
def billionths (digits : List Char) : Nat :=
  numberOf digits * 10 ^ 9 / 10 ^ digits.length

theorem billionths_eq (digits : List Char) (allDigits : AllDigits digits) :
    billionths digits = numberOf (digits.take 9) * 10 ^ (9 - (digits.take 9).length) := by
  unfold billionths
  rcases Nat.le_total digits.length 9 with short | long
  · rw [List.take_of_length_le short]
    apply Nat.div_eq_of_eq_mul_left (Nat.pow_pos (by decide))
    rw [Nat.mul_assoc, ← Nat.pow_add, Nat.sub_add_cancel short]
  · have length : (digits.take 9).length = 9 := by
      rw [List.length_take]
      omega
    have small := numberOf_lt (allDigits.drop 9)
    have power : 10 ^ digits.length = 10 ^ (digits.drop 9).length * 10 ^ 9 := by
      rw [← Nat.pow_add, List.length_drop, Nat.sub_add_cancel long]
    have split : numberOf digits =
        numberOf (digits.take 9) * 10 ^ (digits.drop 9).length + numberOf (digits.drop 9) := by
      rw [← numberOf_append, List.take_append_drop]
    rw [power, Nat.mul_div_mul_right _ _ (by decide), split, Nat.mul_comm,
      Nat.mul_add_div (Nat.pow_pos (by decide)), Nat.div_eq_of_lt small, length, Nat.add_zero,
      Nat.sub_self, Nat.pow_zero, Nat.mul_one]

/-- Up to nine digits nothing is lost. -/
theorem billionths_mul (short : digits.length ≤ 9) :
    billionths digits * 10 ^ digits.length = numberOf digits * 10 ^ 9 := by
  apply Nat.div_mul_cancel
  apply Nat.dvd_mul_left_of_dvd
  exact Nat.pow_dvd_pow 10 short

theorem takeWhile_digits (allDigits : AllDigits digits) (ends : EndsNumber rest) :
    (digits ++ rest).takeWhile Char.isDigit = digits ∧
      (digits ++ rest).dropWhile Char.isDigit = rest := by
  rw [List.takeWhile_append_of_pos allDigits, List.dropWhile_append_of_pos allDigits]
  cases rest with
  | nil => simp
  | cons c rest =>
    have digit := endsNumber_cons.1 ends
    rw [List.takeWhile_cons_of_neg (by simp [digit]), List.dropWhile_cons_of_neg (by simp [digit]),
      List.append_nil]
    exact ⟨rfl, rfl⟩

theorem endsNumber_dropWhile (text : List Char) : EndsNumber (text.dropWhile Char.isDigit) := by
  intro c first
  have := List.head?_dropWhile_not Char.isDigit text
  rw [first] at this
  simpa using this

theorem allDigits_takeWhile (text : List Char) : AllDigits (text.takeWhile Char.isDigit) :=
  fun _ member => List.mem_takeWhile_imp member

theorem readNanos_append (nonempty : digits ≠ []) (allDigits : AllDigits digits)
    (ends : EndsNumber rest) : readNanos (digits ++ rest) = .ok (billionths digits, rest) := by
  obtain ⟨front, back⟩ := takeWhile_digits allDigits ends
  cases digits with
  | nil => exact absurd rfl nonempty
  | cons c digits =>
    have digit : c.isDigit = true := (allDigits_cons.1 allDigits).1
    rw [List.cons_append] at front back ⊢
    rw [readNanos, if_pos digit, front, back, billionths_eq _ allDigits]
    rfl

/-- A fraction is read to its last digit. -/
theorem readNanos_eq_ok :
    readNanos text = .ok (n, rest) ↔ ∃ digits, digits ≠ [] ∧ AllDigits digits ∧ EndsNumber rest ∧
      text = digits ++ rest ∧ n = billionths digits := by
  constructor
  · intro h
    have whole : text.takeWhile Char.isDigit ++ text.dropWhile Char.isDigit = text :=
      List.takeWhile_append_dropWhile
    have some : text.takeWhile Char.isDigit ≠ [] := by
      cases text with
      | nil => cases h
      | cons c text =>
        by_cases digit : c.isDigit = true
        · simp [digit]
        · rw [readNanos, if_neg digit] at h
          cases h
    have read := readNanos_append some (allDigits_takeWhile text) (endsNumber_dropWhile text)
    rw [whole, h] at read
    cases read
    exact ⟨_, some, allDigits_takeWhile text, endsNumber_dropWhile text, whole.symm, rfl⟩
  · rintro ⟨digits, nonempty, allDigits, ends, rfl, rfl⟩
    exact readNanos_append nonempty allDigits ends

end Fractions

end Timestamp

/-! ## Numbers of up to a number of digits -/

namespace Date

section Numbers

variable {limit value n : Nat} {text rest digits : List Char}

/-- The digits of a number are taken while there are any, up to the limit. -/
def Takes (limit : Nat) (digits rest : List Char) : Prop :=
  AllDigits digits ∧ digits.length ≤ limit ∧ (digits.length = limit ∨ EndsNumber rest)

theorem readDigits_append (takes : Takes limit digits rest) (value : Nat) :
    readDigits limit value (digits ++ rest) =
      (value * 10 ^ digits.length + numberOf digits, rest) := by
  obtain ⟨allDigits, short, stops⟩ := takes
  induction digits generalizing limit value with
  | nil =>
    rw [List.length_nil] at stops
    simp only [List.nil_append, List.length_nil, Nat.pow_zero, Nat.mul_one, numberOf,
      Nat.ofDigitChars_nil, Nat.add_zero]
    cases limit with
    | zero => rfl
    | succ limit =>
      have ends : EndsNumber rest := stops.resolve_left (Nat.succ_ne_zero limit).symm
      cases rest with
      | nil => rfl
      | cons c rest => rw [readDigits, endsNumber_cons.1 ends, if_neg Bool.false_ne_true]
  | cons c digits ih =>
    obtain ⟨digit, allDigits⟩ := allDigits_cons.1 allDigits
    rw [List.length_cons] at short stops
    cases limit with
    | zero => omega
    | succ limit =>
      have tail := ih (10 * value + digitValue c) allDigits (Nat.le_of_succ_le_succ short)
        (stops.imp_left Nat.succ.inj)
      rw [List.cons_append, readDigits, if_pos digit, tail, numberOf_cons, List.length_cons,
        Nat.pow_succ]
      congr 1
      ring

theorem exists_takes (limit : Nat) (text : List Char) :
    ∃ digits rest, text = digits ++ rest ∧ Takes limit digits rest := by
  induction limit generalizing text with
  | zero => exact ⟨[], text, rfl, allDigits_nil, Nat.le_refl 0, Or.inl rfl⟩
  | succ limit ih =>
    cases text with
    | nil => exact ⟨[], [], rfl, allDigits_nil, Nat.zero_le _, Or.inr endsNumber_nil⟩
    | cons c text =>
      cases digit : c.isDigit with
      | true =>
        obtain ⟨digits, rest, rfl, allDigits, short, stops⟩ := ih text
        exact ⟨c :: digits, rest, rfl, allDigits_cons.2 ⟨digit, allDigits⟩, Nat.succ_le_succ short,
          stops.imp_left (congrArg Nat.succ)⟩
      | false =>
        exact ⟨[], c :: text, rfl, allDigits_nil, Nat.zero_le _, Or.inr (endsNumber_cons.2 digit)⟩

theorem readNumber?_append (nonempty : digits ≠ []) (takes : Takes limit digits rest) :
    readNumber? limit (digits ++ rest) = some (numberOf digits, rest) := by
  have read := readDigits_append takes 0
  rw [Nat.zero_mul, Nat.zero_add] at read
  cases digits with
  | nil => exact absurd rfl nonempty
  | cons c digits =>
    have digit : c.isDigit = true := (allDigits_cons.1 takes.1).1
    rw [List.cons_append] at read ⊢
    rw [readNumber?, if_pos digit, read]

/-- A number is read to its last digit, or to the limit. -/
theorem readNumber?_eq_some (some : 0 < limit) :
    readNumber? limit text = .some (n, rest) ↔
      ∃ digits, digits ≠ [] ∧ Takes limit digits rest ∧ text = digits ++ rest ∧
        n = numberOf digits := by
  constructor
  · intro h
    obtain ⟨digits, rest', rfl, takes⟩ := exists_takes limit text
    have nonempty : digits ≠ [] := by
      rintro rfl
      have ends : EndsNumber rest' := takes.2.2.resolve_left (Nat.ne_of_lt some)
      cases rest' with
      | nil => cases h
      | cons c rest' =>
        rw [List.nil_append, readNumber?, endsNumber_cons.1 ends, if_neg Bool.false_ne_true] at h
        cases h
    rw [readNumber?_append nonempty takes] at h
    cases h
    exact ⟨digits, nonempty, takes, rfl, rfl⟩
  · rintro ⟨digits, nonempty, takes, rfl, rfl⟩
    exact readNumber?_append nonempty takes

end Numbers

end Date
end ExpenseLedger
