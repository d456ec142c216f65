import ExpenseLedger.Json.Codec
import ExpenseLedger.Proofs.Json.Reading
import ExpenseLedger.Proofs.Money.Conversion
import ExpenseLedger.Proofs.Money.Hundredths

/-!
# Amounts as people write them

A text is read as an amount if the characters of it that count are a numeral whose hundredths, cut
toward zero, fit 64 bits (`amounts_read`). Rounding at the last place that a decimal has room for shows
in the hundredths only behind a row of nines. The canonical text of an amount has two places and is far
from that, so it is read back as the amount: `amount_texts_canonical`.
-/

namespace ExpenseLedger

open Decimal (Numeral)

namespace Amount

/-! ## The characters that count -/

/-- The characters of a text that count. -/
def significant (text : String) : List Char :=
  text.toList.filter isSignificant

theorem isBlank_eq_false {c : Char} (counts : isSignificant c = true) : isBlank c = false := by
  unfold isSignificant at counts
  simp only [Bool.or_eq_true, beq_iff_eq] at counts
  rcases counts with (digit | rfl) | rfl
  · have bounds := toNat_of_isDigit digit
    exact isBlank_of_printed (by omega) (by omega)
  · rfl
  · rfl

theorem filter_dropWhile_isBlank (text : List Char) :
    (text.dropWhile isBlank).filter isSignificant = text.filter isSignificant := by
  induction text with
  | nil => rfl
  | cons c rest ih =>
    by_cases blank : isBlank c = true
    · have dropped : isSignificant c = false := by
        refine Bool.eq_false_iff.2 fun counts => ?_
        rw [isBlank_eq_false counts] at blank
        cases blank
      rw [List.dropWhile_cons_of_pos blank, ih, List.filter_cons_of_neg (by simp [dropped])]
    · rw [List.dropWhile_cons_of_neg blank]

theorem filter_trimChars (text : List Char) :
    (trimChars text).filter isSignificant = text.filter isSignificant := by
  unfold trimChars trimEnd
  rw [List.filter_reverse, filter_dropWhile_isBlank, List.filter_reverse, List.reverse_reverse,
    filter_dropWhile_isBlank]

end Amount

/-! ## Reading an amount -/

namespace Decimal.Numeral

variable {n : Numeral}

/-- The hundredths of a numeral as they are read, with their sign. -/
def cents (n : Numeral) : Int :=
  signedBy n.negative (n.hundredths + if n.RoundsUp then 1 else 0)

theorem toChars_ne_nil (n : Numeral) : n.toChars ≠ [] := by
  intro none
  obtain ⟨-, rest⟩ := List.append_eq_nil_iff.1 none
  obtain ⟨whole, part⟩ := List.append_eq_nil_iff.1 rest
  refine n.nonempty ?_
  cases point : n.part with
  | none => simpa using whole
  | some places =>
    rw [point] at part
    cases part

theorem hundred_mul_le_hundredths (n : Numeral) : 100 * n.mantissa 0 ≤ n.hundredths := by
  unfold hundredths
  rw [Nat.le_div_iff_mul_le (Nat.pow_pos (by decide)), n.numberOf_eq 0, Nat.sub_zero, Nat.mul_assoc]
  exact Nat.mul_le_mul_left 100 (Nat.le_add_right _ _)

theorem hundredths_le_of_fits (fits : FitsInt64 n.cents) : n.hundredths ≤ 2 ^ 63 :=
  Nat.le_trans (Nat.le_add_right _ _) (fitsInt64_signedBy fits)

/-- The hundredths are those of the number, cut toward zero. -/
theorem towardZero_value (n : Numeral) :
    Conversion.towardZero (100 * n.value) = signedBy n.negative n.hundredths := by
  have floor : ⌊100 * n.magnitude⌋ = (n.hundredths : Int) := by
    have quotient : 100 * n.magnitude =
        ((100 * numberOf (n.whole ++ n.places) : Nat) : ℚ) / ((10 ^ n.places.length : Nat) : ℚ) := by
      unfold magnitude
      push_cast
      ring
    rw [quotient, Rat.floor_natCast_div_natCast]
    rfl
  have nonneg : 0 ≤ 100 * n.magnitude := by
    unfold magnitude
    positivity
  unfold Conversion.towardZero value signedBy
  cases n.negative with
  | false => simp only [Bool.false_eq_true, if_false, not_lt.2 nonneg, floor]
  | true =>
    have opposite : 100 * -n.magnitude = -(100 * n.magnitude) := mul_neg 100 _
    simp only [if_true, opposite, Int.ceil_neg, Int.floor_neg, floor]
    split
    · rfl
    · next zero =>
      -- Minus nothing is nothing, whichever way it is cut.
      have none : 100 * n.magnitude = 0 := by linarith
      rw [none, Int.floor_zero] at floor
      rw [none, Int.ceil_zero, ← floor]

end Decimal.Numeral

namespace Amount

variable {text : String} {amount : Amount} {n : Numeral}

theorem parse_of_nonempty (nonempty : significant text ≠ []) :
    parse text =
      match Decimal.read (significant text) with
      | .error fault => .error (.unreadable text fault)
      | .ok value =>
        match ofDecimal? value with
        | some amount => .ok amount
        | none => .error (.outOfRange text) := by
  have trimmed : (trimChars text.toList).isEmpty = false := by
    refine Bool.eq_false_iff.2 fun none => nonempty ?_
    unfold significant
    rw [← filter_trimChars, List.isEmpty_iff.1 none]
    rfl
  unfold parse
  dsimp only
  rw [trimmed, if_neg Bool.false_ne_true, filter_trimChars]
  rfl

/-- What is read is a numeral, but for the characters that do not count. -/
theorem exists_numeral_of_parse (h : parse text = .ok amount) :
    ∃ n : Numeral, n.toChars = significant text := by
  by_cases none : significant text = []
  · unfold parse at h
    dsimp only at h
    rw [filter_trimChars] at h
    split at h
    · cases h
    · have empty : text.toList.filter isSignificant = [] := none
      rw [empty] at h
      cases h
  · rw [parse_of_nonempty none] at h
    cases read : Decimal.read (significant text) with
    | error fault =>
      rw [read] at h
      cases h
    | ok decimal => exact Decimal.exists_numeral_of_read read

/-- A numeral is an amount if its hundredths fit, and then it is that many. -/
theorem parse_eq_ok_iff (same : n.toChars = significant text) :
    parse text = .ok amount ↔ FitsInt64 n.cents ∧ amount.minor = n.cents := by
  rw [parse_of_nonempty (same ▸ n.toChars_ne_nil), ← same]
  rcases Nat.lt_or_ge (n.mantissa 0) (10 ^ 17) with near | far
  · obtain ⟨decimal, read, negative, hundredths⟩ := Numeral.read_near near
    have cents : signedBy decimal.negative decimal.hundredths = n.cents := by
      rw [negative, hundredths]
      rfl
    simp only [read, Decimal.ofDecimal?_eq, cents]
    by_cases fits : FitsInt64 n.cents
    · simp only [fits, if_true, Except.ok.injEq, true_and]
      constructor
      · rintro rfl
        rfl
      · intro minor
        rw [← minor]
    · simp [fits]
  · have large := n.hundred_mul_le_hundredths
    have out : ¬FitsInt64 n.cents := fun fits => by
      have := Numeral.hundredths_le_of_fits fits
      omega
    simp only [out, false_and, iff_false]
    cases read : Decimal.read n.toChars with
    | error fault => exact nofun
    | ok decimal =>
      have kept := Numeral.read_far far read
      have out' : ¬FitsInt64 (signedBy decimal.negative decimal.hundredths) := fun fits => by
        have := fitsInt64_signedBy fits
        omega
      simp [Decimal.ofDecimal?_eq, out']

/-- A text is read as an amount only if the characters that count are a numeral. Then it is read as the
number's hundredths, cut toward zero, if they fit 64 bits. Where rounding carries into the hundredths
they are one more, away from zero. -/
theorem amounts_read (text : String) :
    (∀ amount, parse text = .ok amount → ∃ n : Numeral, n.toChars = significant text) ∧
      ∀ n : Numeral, n.toChars = significant text →
        (¬n.RoundsUp → ∀ amount, parse text = .ok amount ↔
          FitsInt64 (Conversion.towardZero (100 * n.value)) ∧
            amount.minor = Conversion.towardZero (100 * n.value)) ∧
        (n.RoundsUp → ∀ amount, parse text = .ok amount ↔
          FitsInt64 (Conversion.towardZero (100 * n.value) + if n.negative then -1 else 1) ∧
            amount.minor = Conversion.towardZero (100 * n.value) + if n.negative then -1 else 1) := by
  refine ⟨fun _ => exists_numeral_of_parse, fun n same => ⟨fun stays amount => ?_, fun up amount => ?_⟩⟩
  · have cents : Conversion.towardZero (100 * n.value) = n.cents := by
      unfold Numeral.cents
      rw [n.towardZero_value, if_neg stays, Nat.add_zero]
    rw [cents]
    exact parse_eq_ok_iff same
  · have cents : (Conversion.towardZero (100 * n.value) + if n.negative then -1 else 1) = n.cents := by
      unfold Numeral.cents signedBy
      rw [n.towardZero_value, if_pos up]
      unfold signedBy
      split <;> omega
    rw [cents]
    exact parse_eq_ok_iff same

/-- A price with its currency, separated thousands and more than two places. -/
def wordy : Numeral where
  negative := true
  whole := ['1', '2', '3', '4']
  part := some ['5', '6', '7', '8']

theorem amounts_read_wordy :
    wordy.toChars = significant "USD -1,234.5678" ∧ ¬wordy.RoundsUp ∧
      parse "USD -1,234.5678" = .ok ⟨-123456⟩ := by
  have same : wordy.toChars = significant "USD -1,234.5678" := by decide +kernel
  have stays : ¬wordy.RoundsUp := by decide +kernel
  have cut : Conversion.towardZero (100 * wordy.value) = -123456 := by
    rw [wordy.towardZero_value]
    decide +kernel
  refine ⟨same, stays, (((amounts_read _).2 wordy same).1 stays ⟨-123456⟩).2 ?_⟩
  rw [cut]
  exact ⟨by decide, rfl⟩

/-- One place more than a decimal has, and all of them nines. -/
def nines : Numeral where
  negative := false
  whole := ['0']
  part := some (List.replicate 29 '9')

/-- The nines are rounded up to one, and so become a whole unit instead of its last hundredth but one. -/
theorem nines_rounded_up :
    nines.toChars = significant "0.99999999999999999999999999999" ∧
      Conversion.towardZero (100 * nines.value) = 99 ∧
      parse "0.99999999999999999999999999999" = .ok ⟨100⟩ := by
  refine ⟨by decide +kernel, ?_, by decide +kernel⟩
  rw [nines.towardZero_value]
  decide +kernel

/-! ## The canonical text -/

/-- The numeral that the canonical text of an amount is. -/
def numeral (amount : Amount) : Numeral where
  negative := decide (amount.minor < 0)
  whole := naturalDigits (amount.minor.natAbs / minorPerMajor)
  part := some (paddedDigits 2 (amount.minor.natAbs % minorPerMajor))
  digits := AllDigits.append (fun _ member => isDigit_of_mem_naturalDigits member)
    (allDigits_paddedDigits 2 _)
  nonempty := fun none => naturalDigits_ne_nil _ (List.append_eq_nil_iff.1 none).1

theorem toChars_numeral (amount : Amount) : amount.numeral.toChars = amount.toChars := by
  unfold Numeral.toChars toChars numeral
  simp only [decide_eq_true_eq, List.append_assoc]
  rfl

/-- Every character of the canonical text counts. -/
theorem significant_toText (amount : Amount) : significant amount.toText = amount.numeral.toChars := by
  unfold significant toText
  rw [String.toList_ofList, toChars_numeral, List.filter_eq_self]
  intro c member
  have digits : ∀ c, c.isDigit = true → isSignificant c = true := fun c digit => by
    unfold isSignificant
    rw [digit]
    rfl
  rw [← toChars_numeral] at member
  rcases List.mem_append.1 member with sign | rest
  · unfold numeral at sign
    dsimp only at sign
    split at sign
    · rw [List.mem_singleton.1 sign]
      rfl
    · cases sign
  · rcases List.mem_append.1 rest with whole | part
    · exact digits c (isDigit_of_mem_naturalDigits whole)
    · rcases List.mem_cons.1 part with rfl | place
      · rfl
      · exact digits c (allDigits_paddedDigits 2 _ c place)

theorem numberOf_numeral (amount : Amount) :
    numberOf (amount.numeral.whole ++ amount.numeral.places) = amount.minor.natAbs := by
  have whole : numberOf amount.numeral.whole = amount.minor.natAbs / minorPerMajor :=
    ofDigitChars_naturalDigits _
  have places : amount.numeral.places = paddedDigits 2 (amount.minor.natAbs % minorPerMajor) := rfl
  rw [numberOf_append, whole, places, length_paddedDigits, numberOf_paddedDigits]
  unfold minorPerMajor
  omega

theorem hundredths_numeral (amount : Amount) : amount.numeral.hundredths = amount.minor.natAbs := by
  have places : amount.numeral.places.length = 2 := length_paddedDigits 2 _
  unfold Numeral.hundredths
  rw [numberOf_numeral, places]
  exact Nat.mul_div_cancel_left _ (by decide)

end Amount

/-- A numeral of which nothing is left over is not rounded. -/
theorem Decimal.Numeral.not_roundsUp {n : Numeral} (few : n.places.length ≤ Decimal.maxScale)
    (small : numberOf (n.whole ++ n.places) < Decimal.mantissaLimit) : ¬n.RoundsUp := by
  have fits : n.mantissa n.places.length < Decimal.mantissaLimit := by
    unfold Numeral.mantissa
    rwa [List.take_length]
  have room : n.places.length ≤ n.room :=
    Nat.le_findGreatest (Nat.le_min.2 ⟨few, Nat.le_refl _⟩) fits
  rintro ⟨high, -⟩
  rw [List.drop_eq_nil_of_le room] at high
  exact absurd high (by decide)

namespace Amount

theorem cents_numeral {amount : Amount} (fits : FitsInt64 amount.minor) :
    amount.numeral.cents = amount.minor := by
  have stays : ¬amount.numeral.RoundsUp := by
    refine Numeral.not_roundsUp ?_ ?_
    · have places : amount.numeral.places.length = 2 := length_paddedDigits 2 _
      rw [places]
      decide
    · obtain ⟨low, high⟩ := fits
      unfold minInt64 at low
      unfold maxInt64 at high
      rw [numberOf_numeral]
      unfold Decimal.mantissaLimit
      omega
  unfold Numeral.cents
  rw [if_neg stays, hundredths_numeral, Nat.add_zero]
  unfold signedBy numeral
  simp only [decide_eq_true_eq]
  split <;> omega

theorem parse_toText {amount : Amount} (fits : FitsInt64 amount.minor) :
    parse amount.toText = .ok amount := by
  rw [parse_eq_ok_iff (significant_toText amount).symm, cents_numeral fits]
  exact ⟨fits, rfl⟩

theorem fits_of_parse {text : String} {amount : Amount} (h : parse text = .ok amount) :
    FitsInt64 amount.minor := by
  obtain ⟨n, same⟩ := exists_numeral_of_parse h
  obtain ⟨fits, minor⟩ := (parse_eq_ok_iff same).1 h
  rwa [minor]

theorem whole_toJson {amount : Amount} (fits : FitsInt64 amount.minor) :
    Json.Reader.whole fromJson amount.toJson.toText = .ok amount := by
  refine Json.Reader.whole_of_reads ?_
  refine Json.Reader.reads_refine (Json.Reader.reads_string amount.toText) ?_
  rw [parse_toText fits]
  rfl

/-- An amount is read back from its canonical text and from its JSON. So the text that is written for
what was read is read as the same again, and no two amounts have one text. -/
theorem amount_texts_canonical :
    (∀ amount : Amount, FitsInt64 amount.minor →
      parse amount.toText = .ok amount ∧
        Json.Reader.whole fromJson amount.toJson.toText = .ok amount) ∧
      (∀ text amount, parse text = .ok amount → parse amount.toText = .ok amount) ∧
      ∀ amount amount' : Amount, FitsInt64 amount.minor → FitsInt64 amount'.minor →
        amount.toText = amount'.toText → amount = amount' := by
  refine ⟨fun _ fits => ⟨parse_toText fits, whole_toJson fits⟩,
    fun _ _ read => parse_toText (fits_of_parse read), fun amount amount' fits fits' same => ?_⟩
  have read := parse_toText fits
  rw [same, parse_toText fits'] at read
  exact (Except.ok.inj read).symm

theorem amount_texts_canonical_least :
    FitsInt64 minInt64 ∧ toText ⟨minInt64⟩ = "-92233720368547758.08" ∧
      parse (toText ⟨minInt64⟩) = .ok ⟨minInt64⟩ := by
  have fits : FitsInt64 minInt64 := by decide
  exact ⟨fits, by decide +kernel, (amount_texts_canonical.1 ⟨minInt64⟩ fits).1⟩

end Amount
end ExpenseLedger
