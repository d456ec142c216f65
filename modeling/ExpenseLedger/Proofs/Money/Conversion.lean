import ExpenseLedger.Error
import ExpenseLedger.Proofs.Numeric.Decimal
import Mathlib.Data.Int.Order.Units
import Mathlib.Data.Rat.Floor
import Mathlib.Tactic.Linarith
import Mathlib.Tactic.NormNum
import Mathlib.Tactic.Positivity
import Mathlib.Tactic.Ring

/-!
# Conversions against exact arithmetic

A conversion is one decimal operation with its digits after the point cut off, and the operation has
rounded already. What it gives is therefore measured against the exact product or quotient, a rational
number: `Conversion.Computes` says what either conversion does with it, and `conversions_settle`
which amounts that leaves possible.
-/

namespace ExpenseLedger

theorem maxInt64_eq : maxInt64 = 2 ^ 63 - 1 := rfl

theorem minInt64_eq : minInt64 = -2 ^ 63 := rfl

/-! ## Rates as numbers -/

namespace Rate

/-- The number that a rate is. -/
def toRat (rate : Rate) : ℚ :=
  rate.value.mantissa / 10 ^ rate.value.scale

theorem toRat_pos (rate : Rate) : 0 < rate.toRat := by
  have mantissa : (0 : ℚ) < rate.value.mantissa := by exact_mod_cast rate.positive.2
  unfold toRat
  positivity

end Rate

theorem Error.ofConversion_eq_ok {conversion : Except Conversion.Overflow Int} {value : Int} :
    Error.ofConversion conversion = .ok value ↔ conversion = .ok value := by
  cases conversion <;> simp [Error.ofConversion]

theorem Decimal.exists_ofInt? {amount : Int} (fits : FitsInt64 amount) :
    ∃ decimal, Decimal.ofInt? amount = some decimal ∧ decimal.negative = decide (amount < 0) ∧
      decimal.mantissa = amount.natAbs ∧ decimal.scale = 0 := by
  have small : amount.natAbs < mantissaLimit := by
    have lower : -2 ^ 63 ≤ amount := fits.1
    have upper : amount ≤ 2 ^ 63 - 1 := fits.2
    unfold mantissaLimit
    omega
  exact ⟨_, Decimal.ofParts?_of_fits _ small (Nat.zero_le _), rfl, rfl, rfl⟩

namespace Conversion

/-! ## Whole numbers with a sign -/

/-- A whole number with the sign of the amount that it is made of. -/
def signed (amount : Int) (whole : Nat) : Int :=
  if amount < 0 then -(whole : Int) else whole

theorem natAbs_signed (amount : Int) (whole : Nat) : (signed amount whole).natAbs = whole := by
  unfold signed
  split <;> omega

theorem fits_signed {amount : Int} {whole : Nat} (small : whole ≤ 2 ^ 63 - 1) :
    FitsInt64 (signed amount whole) := by
  unfold FitsInt64 signed
  rw [minInt64_eq, maxInt64_eq]
  split <;> omega

theorem le_of_fits_signed {amount : Int} {whole : Nat} (fits : FitsInt64 (signed amount whole)) :
    whole ≤ 2 ^ 63 := by
  unfold FitsInt64 signed at fits
  rw [minInt64_eq, maxInt64_eq] at fits
  split at fits <;> omega

theorem signed_mul_pos {amount : Int} {whole : Nat} {factor : ℚ} (pos : 0 < factor)
    (nonzero : amount ≠ 0) (some : 0 < whole) :
    (0 : ℚ) < signed amount whole * (amount * factor) := by
  have size : (0 : ℚ) < whole := by exact_mod_cast some
  unfold signed
  rcases lt_or_gt_of_ne nonzero with negative | positive
  · have below : (amount : ℚ) < 0 := by exact_mod_cast negative
    rw [if_pos negative]
    push_cast
    nlinarith [mul_pos (mul_pos size pos) (neg_pos.2 below)]
  · have above : (0 : ℚ) < amount := by exact_mod_cast positive
    rw [if_neg (not_lt.2 (le_of_lt positive))]
    push_cast
    positivity

/-! ## What is computed -/

/-- What is done with an amount times a factor: the whole part is kept if it fits, and refused
otherwise. A decimal that has no room for the product is out of range by far. -/
inductive Computes (amount : Int) (rate : Rate) (factor : ℚ) : Except Overflow Int → Prop
  | cut {whole : Nat} (near : Decimal.IsTruncated (|(amount : ℚ)| * factor) whole) :
      Computes amount rate factor
        (if FitsInt64 (signed amount whole) then .ok (signed amount whole)
          else .error { amount, rate })
  | lost (far : 2 ^ 64 ≤ |(amount : ℚ)| * factor) : Computes amount rate factor (.error { amount, rate })

section Computes

variable {amount : Int} {rate : Rate} {factor : ℚ} {num den top : Nat}

theorem settle_some {decimal : Decimal} (negative : decimal.negative = decide (amount < 0)) :
    settle amount rate (some decimal) =
      if FitsInt64 (signed amount decimal.wholePart) then .ok (signed amount decimal.wholePart)
        else .error { amount, rate } := by
  have cut : decimal.trunc = signed amount decimal.wholePart := by
    rw [Decimal.trunc_eq, negative]
    simp only [decide_eq_true_eq, signed]
  unfold settle
  dsimp only
  rw [cut]

/-- A conversion is a fraction, made a decimal and cut. -/
theorem settle_computes (pos : 0 < den) (small : top ≤ 28) (fine : top = 28 ∨ den = tenTo top)
    (same : |(amount : ℚ)| * factor = num / den) :
    Computes amount rate factor
      (settle amount rate (Decimal.ofRatio? (decide (amount < 0)) num den top)) := by
  cases found : Decimal.ofRatio? (decide (amount < 0)) num den top with
  | some decimal =>
    have rounds := Decimal.rounds_of_ofRatio? small found
    rw [settle_some rounds.negative]
    exact .cut (same ▸ rounds.isTruncated pos fine)
  | none =>
    refine .lost ?_
    have full : Decimal.mantissaLimit ≤ roundHalfEven num den := by
      refine Nat.not_lt.1 fun fits => ?_
      obtain ⟨decimal, some⟩ := Decimal.exists_ofRatio? (decide (amount < 0)) top fits
      rw [found] at some
      cases some
    have full' : ((Decimal.mantissaLimit : Nat) : ℚ) ≤ roundHalfEven num den := by
      exact_mod_cast full
    have limit : ((Decimal.mantissaLimit : Nat) : ℚ) = 2 ^ 96 := by
      norm_num [Decimal.mantissaLimit]
    rw [limit] at full'
    rw [same]
    linarith [(roundHalfEven_near num pos).1]

theorem fromBase_eq (fits : FitsInt64 amount) (rate : Rate) :
    fromBase amount rate = settle amount rate
      (Decimal.ofRatio? (decide (amount < 0)) (amount.natAbs * rate.value.mantissa)
        (tenTo rate.value.scale) rate.value.scale) := by
  obtain ⟨decimal, found, negative, mantissa, scale⟩ := Decimal.exists_ofInt? fits
  have fine : min Decimal.maxScale rate.value.scale = rate.value.scale :=
    Nat.min_eq_right rate.value.scale_le
  have product : decimal.mul? rate.value =
      Decimal.ofRatio? (decide (amount < 0)) (amount.natAbs * rate.value.mantissa)
        (tenTo rate.value.scale) rate.value.scale := by
    unfold Decimal.mul?
    rw [negative, mantissa, scale, rate.positive.1, Bool.bne_false, Nat.zero_add, fine]
  unfold fromBase
  rw [found, Option.bind_eq_bind, Option.bind_some, product]

theorem toBase_eq (fits : FitsInt64 amount) (rate : Rate) :
    toBase amount rate = settle amount rate
      (Decimal.ofRatio? (decide (amount < 0)) (amount.natAbs * tenTo rate.value.scale)
        rate.value.mantissa Decimal.maxScale) := by
  obtain ⟨decimal, found, negative, mantissa, scale⟩ := Decimal.exists_ofInt? fits
  have quotient : decimal.div? rate.value =
      Decimal.ofRatio? (decide (amount < 0)) (amount.natAbs * tenTo rate.value.scale)
        rate.value.mantissa Decimal.maxScale := by
    unfold Decimal.div?
    rw [negative, mantissa, scale, rate.positive.1, Bool.bne_false, tenTo_zero, Nat.mul_one]
  unfold toBase
  rw [found, Option.bind_eq_bind, Option.bind_some, quotient]

theorem abs_mul_toRat (amount : Int) (rate : Rate) :
    |(amount : ℚ)| * rate.toRat =
      ((amount.natAbs * rate.value.mantissa : Nat) : ℚ) / ((tenTo rate.value.scale : Nat) : ℚ) := by
  push_cast [Rate.toRat, Nat.cast_natAbs, cast_tenTo]
  ring

theorem abs_mul_inv_toRat (amount : Int) (rate : Rate) :
    |(amount : ℚ)| * rate.toRat⁻¹ =
      ((amount.natAbs * tenTo rate.value.scale : Nat) : ℚ) / (rate.value.mantissa : ℚ) := by
  push_cast [Rate.toRat, Nat.cast_natAbs, cast_tenTo]
  rw [inv_div, mul_div_assoc]

theorem fromBase_computes (fits : FitsInt64 amount) (rate : Rate) :
    Computes amount rate rate.toRat (fromBase amount rate) := by
  rw [fromBase_eq fits]
  exact settle_computes (tenTo_pos _) rate.value.scale_le (.inr rfl) (abs_mul_toRat amount rate)

theorem toBase_computes (fits : FitsInt64 amount) (rate : Rate) :
    Computes amount rate rate.toRat⁻¹ (toBase amount rate) := by
  rw [toBase_eq fits]
  exact settle_computes rate.positive.2 (Nat.le_refl _) (.inl rfl) (abs_mul_inv_toRat amount rate)

end Computes

/-! ## Truncation -/

/-- The whole part of a number, with its sign. -/
def towardZero (exact : ℚ) : Int :=
  if exact < 0 then ⌈exact⌉ else ⌊exact⌋

/-- A whole number is a truncated result if it has the sign of the result and the size of its whole
part; the next size up is allowed within a billionth. -/
structure Truncates (exact : ℚ) (value : Int) : Prop where
  sign : value = 0 ∨ 0 < value * exact
  size : (value.natAbs : Int) = ⌊|exact|⌋ ∨
    (value.natAbs : Int) = ⌊|exact|⌋ + 1 ∧ ⌊|exact|⌋ + 1 - |exact| ≤ 1 / 10 ^ 9

/-- How a conversion stands to the exact result. -/
structure Settles (amount : Int) (rate : Rate) (exact : ℚ) (outcome : Outcome Int) : Prop where
  /-- An amount that is given is in range and is the truncated result. -/
  settled : ∀ value, outcome = .ok value → FitsInt64 value ∧ Truncates exact value
  /-- A refusal names the amount and the rate, and the truncated result is out of range. -/
  refused : ∀ error, outcome = .error error →
    error = .conversionFailure (.overflow { amount, rate }) ∧
      ∃ value, Truncates exact value ∧ ¬FitsInt64 value
  succeeds : |exact| < 2 ^ 63 - 1 → ∃ value, outcome = .ok value
  fails : 2 ^ 63 + 1 ≤ |exact| → ∃ error, outcome = .error error

section Truncation

variable {amount : Int} {rate : Rate} {factor : ℚ}

/-- Below the ends of the range a tiny part of the result is less than a billionth. -/
theorem tiny_le {exact : ℚ} (small : exact < 2 ^ 63 + 1) : exact / 10 ^ 28 ≤ 1 / 10 ^ 9 := by
  rw [div_le_iff₀ (by norm_num)]
  norm_num at small ⊢
  linarith

/-- A truncated result has the size of the whole part, or the next one. -/
theorem floor_or_of_isTruncated {exact : ℚ} {whole : Nat} (near : Decimal.IsTruncated exact whole)
    (small : exact < 2 ^ 63 + 1) :
    (whole : Int) = ⌊exact⌋ ∨ (whole : Int) = ⌊exact⌋ + 1 ∧ ⌊exact⌋ + 1 - exact ≤ 1 / 10 ^ 9 := by
  have tiny := tiny_le small
  have upper := near.le_add
  have below : ⌊exact⌋ < (whole : Int) + 1 := by
    rw [Int.floor_lt]
    exact_mod_cast near.lt_succ
  have above : (whole : Int) < ⌊exact⌋ + 2 := by
    have next := Int.lt_floor_add_one exact
    have less : ((whole : Int) : ℚ) < ((⌊exact⌋ + 2 : Int) : ℚ) := by
      push_cast
      linarith
    exact_mod_cast less
  rcases (by omega : (whole : Int) = ⌊exact⌋ ∨ (whole : Int) = ⌊exact⌋ + 1) with same | next
  · exact .inl same
  · refine .inr ⟨next, ?_⟩
    have next' : (whole : ℚ) = ⌊exact⌋ + 1 := by exact_mod_cast next
    linarith

theorem lt_of_isTruncated {exact : ℚ} {whole : Nat} (near : Decimal.IsTruncated exact whole)
    (small : exact < 2 ^ 63 - 1) : whole < 2 ^ 63 := by
  have tiny : exact / 10 ^ 28 ≤ 1 / 10 ^ 9 := tiny_le (by linarith)
  have upper := near.le_add
  have less : (whole : ℚ) < 2 ^ 63 := by linarith
  exact_mod_cast less

/-- A whole number of the right size, given the sign of its amount, is a truncated result. -/
theorem truncates_signed {whole : Nat} (pos : 0 < factor)
    (size : (whole : Int) = ⌊|(amount : ℚ)| * factor⌋ ∨
      (whole : Int) = ⌊|(amount : ℚ)| * factor⌋ + 1 ∧
        ⌊|(amount : ℚ)| * factor⌋ + 1 - |(amount : ℚ)| * factor ≤ 1 / 10 ^ 9) :
    Truncates (amount * factor) (signed amount whole) := by
  have absolute : |(amount : ℚ) * factor| = |(amount : ℚ)| * factor := by
    rw [abs_mul, abs_of_pos pos]
  refine ⟨?_, by rwa [natAbs_signed, absolute]⟩
  rcases Nat.eq_zero_or_pos whole with rfl | some
  · exact .inl (by simp [signed])
  · refine .inr (signed_mul_pos pos ?_ some)
    -- Nothing converted leaves nothing, so what is left comes from a nonzero amount.
    rintro rfl
    simp only [Int.cast_zero, abs_zero, zero_mul, Int.floor_zero, zero_add] at size
    rcases size with none | ⟨-, far⟩
    · omega
    · norm_num at far

/-- A result at the ends of the range or beyond is out of range when it is cut. -/
theorem exists_truncates_of_le (pos : 0 < factor) (far : 2 ^ 63 + 1 ≤ |(amount : ℚ)| * factor) :
    ∃ value, Truncates (amount * factor) value ∧ ¬FitsInt64 value := by
  have nonneg : 0 ≤ ⌊|(amount : ℚ)| * factor⌋ := Int.floor_nonneg.2 (by positivity)
  refine ⟨signed amount ⌊|(amount : ℚ)| * factor⌋.toNat,
    truncates_signed pos (.inl (Int.toNat_of_nonneg nonneg)), fun fits => ?_⟩
  have large : (2 ^ 63 + 1 : Int) ≤ ⌊|(amount : ℚ)| * factor⌋ := by
    rw [Int.le_floor]
    exact_mod_cast far
  have small := le_of_fits_signed fits
  omega

theorem Computes.settles {conversion : Except Overflow Int}
    (computes : Computes amount rate factor conversion) (pos : 0 < factor) :
    Settles amount rate (amount * factor) (Error.ofConversion conversion) := by
  have absolute : |(amount : ℚ) * factor| = |(amount : ℚ)| * factor := by
    rw [abs_mul, abs_of_pos pos]
  cases computes with
  | lost far =>
    constructor
    case settled => exact nofun
    case refused =>
      intro error refusal
      cases refusal
      exact ⟨rfl, exists_truncates_of_le pos (by linarith)⟩
    case succeeds =>
      intro small
      rw [absolute] at small
      linarith
    case fails => exact fun _ => ⟨_, rfl⟩
  | @cut whole near =>
    by_cases fits : FitsInt64 (signed amount whole)
    · rw [if_pos fits]
      have size : (whole : ℚ) ≤ 2 ^ 63 := by exact_mod_cast le_of_fits_signed fits
      have lower := near.lt_succ
      constructor
      case settled =>
        intro value given
        cases given
        exact ⟨fits, truncates_signed pos (floor_or_of_isTruncated near (by linarith))⟩
      case refused =>
        intro error refusal
        cases refusal
      case succeeds => exact fun _ => ⟨_, rfl⟩
      case fails =>
        intro far
        rw [absolute] at far
        linarith
    · rw [if_neg fits]
      constructor
      case settled => exact nofun
      case refused =>
        intro error refusal
        cases refusal
        refine ⟨rfl, ?_⟩
        rcases lt_or_ge (|(amount : ℚ)| * factor) (2 ^ 63 + 1) with small | far
        · exact ⟨_, truncates_signed pos (floor_or_of_isTruncated near small), fits⟩
        · exact exists_truncates_of_le pos far
      case succeeds =>
        intro small
        rw [absolute] at small
        have whole_lt := lt_of_isTruncated near small
        exact absurd (fits_signed (by omega)) fits
      case fails => exact fun _ => ⟨_, rfl⟩

theorem signed_floor (pos : 0 < factor) :
    signed amount ⌊|(amount : ℚ)| * factor⌋.toNat = towardZero (amount * factor) := by
  have whole : ((⌊|(amount : ℚ)| * factor⌋.toNat : Nat) : Int) = ⌊|(amount : ℚ)| * factor⌋ :=
    Int.toNat_of_nonneg (Int.floor_nonneg.2 (by positivity))
  unfold signed towardZero
  rw [whole]
  rcases lt_or_ge amount 0 with negative | nonneg
  · have below : (amount : ℚ) < 0 := by exact_mod_cast negative
    rw [if_pos negative, if_pos (mul_neg_of_neg_of_pos below pos), abs_of_neg below, neg_mul,
      Int.floor_neg, neg_neg]
  · have above : (0 : ℚ) ≤ amount := by exact_mod_cast nonneg
    rw [if_neg (not_lt.2 nonneg), if_neg (not_lt.2 (mul_nonneg above pos.le)), abs_of_nonneg above]

/-- A product whose digits all fit is truncated exactly. -/
theorem fromBase_of_fits (fits : FitsInt64 amount)
    (room : amount.natAbs * rate.value.mantissa < Decimal.mantissaLimit) :
    fromBase amount rate =
      if FitsInt64 (towardZero (amount * rate.toRat)) then .ok (towardZero (amount * rate.toRat))
      else .error { amount, rate } := by
  have whole : amount.natAbs * rate.value.mantissa / tenTo rate.value.scale =
      ⌊|(amount : ℚ)| * rate.toRat⌋.toNat := by
    rw [abs_mul_toRat, Rat.floor_natCast_div_natCast]
    rfl
  rw [fromBase_eq fits, Decimal.ofRatio?_of_fits _ room rate.value.scale_le, settle_some rfl,
    ← signed_floor rate.toRat_pos, ← whole]
  rfl

end Truncation

/-- Either conversion gives the exact result truncated toward zero, or within a billionth the next
amount away from zero, and refuses what is out of range and nothing else; from the reference currency
the truncation is exact whenever the digits of the product fit. -/
theorem conversions_settle {amount : Int} (fits : FitsInt64 amount) (rate : Rate) :
    Settles amount rate (amount * rate.toRat) (Error.ofConversion (fromBase amount rate)) ∧
      Settles amount rate (amount / rate.toRat) (Error.ofConversion (toBase amount rate)) ∧
      (amount.natAbs * rate.value.mantissa < 2 ^ 96 →
        fromBase amount rate =
          if FitsInt64 (towardZero (amount * rate.toRat)) then
            .ok (towardZero (amount * rate.toRat))
          else .error { amount, rate }) := by
  refine ⟨(fromBase_computes fits rate).settles rate.toRat_pos, ?_, fromBase_of_fits fits⟩
  rw [div_eq_mul_inv]
  exact (toBase_computes fits rate).settles (inv_pos.2 rate.toRat_pos)

/-- A rate just below one. -/
def nearlyOne : Rate where
  value := { negative := false, mantissa := 999999999999999, scale := 15 }

/-- Close to the end of the range the product has no room for its last digits, and the amount that is
given is the next one above the whole part. -/
theorem fromBase_nearlyOne :
    FitsInt64 9000000000000000001 ∧
      fromBase 9000000000000000001 nearlyOne = .ok 8999999999999991001 ∧
      towardZero (((9000000000000000001 : Int) : ℚ) * nearlyOne.toRat) = 8999999999999991000 ∧
      Truncates (((9000000000000000001 : Int) : ℚ) * nearlyOne.toRat) 8999999999999991001 := by
  have fits : FitsInt64 9000000000000000001 := by decide
  have given : fromBase 9000000000000000001 nearlyOne = .ok 8999999999999991001 := by decide
  refine ⟨fits, given, ?_, ?_⟩
  · norm_num [towardZero, Rate.toRat, nearlyOne]
  · exact ((conversions_settle fits nearlyOne).1.settled _ (congrArg Error.ofConversion given)).2

end Conversion
end ExpenseLedger
