import ExpenseLedger.Numeric.Decimal
import Mathlib.Algebra.Order.Field.Basic
import Mathlib.Data.Rat.Cast.Order
import Mathlib.Tactic.FieldSimp
import Mathlib.Tactic.Linarith
import Mathlib.Tactic.NormNum
import Mathlib.Tactic.Positivity
import Mathlib.Tactic.Ring

/-!
# How close a decimal is to its fraction

A fraction is rounded at the finest scale at which its mantissa fits 96 bits. The scale depends on
the fraction, so the distance is bounded in two ways: by half a unit at the scale that was chosen,
and, because the next finer scale was out of room, by a tiny part of the fraction itself. Cutting off
the places after the point then gives the whole part of the fraction, unless rounding has gone up to
the next whole number: `Decimal.IsTruncated`.
-/

namespace ExpenseLedger

/-! ## Rounding half to even -/

section Rounding

variable {num den : Nat}

/-- Rounding moves a quotient by half a unit at most. -/
theorem two_mul_roundHalfEven_le (num : Nat) (pos : 0 < den) :
    2 * (roundHalfEven num den * den) ≤ 2 * num + den ∧
      2 * num ≤ 2 * (roundHalfEven num den * den) + den := by
  have split := Nat.div_add_mod num den
  have less := Nat.mod_lt num pos
  have whole : num / den * den = den * (num / den) := Nat.mul_comm _ _
  unfold roundHalfEven
  dsimp only
  split
  · rw [Nat.add_mul, whole]
    omega
  · rw [whole]
    omega

/-- A whole number that is not above the quotient is not above what it is rounded to. -/
theorem le_roundHalfEven {whole : Nat} (pos : 0 < den) (h : whole * den ≤ num) :
    whole ≤ roundHalfEven num den := by
  have below : whole ≤ num / den := (Nat.le_div_iff_mul_le pos).2 h
  rcases roundHalfEven_eq_or num den with same | up
  · rw [same]
    exact below
  · rw [up]
    exact Nat.le_succ_of_le below

/-- What a quotient is rounded to, against the quotient itself. -/
theorem roundHalfEven_near (num : Nat) (pos : 0 < den) :
    (roundHalfEven num den : ℚ) ≤ num / den + 1 / 2 ∧
      (num : ℚ) / den ≤ roundHalfEven num den + 1 / 2 := by
  obtain ⟨upper, lower⟩ := two_mul_roundHalfEven_le num pos
  have pos' : (0 : ℚ) < den := by exact_mod_cast pos
  have upper' : 2 * ((roundHalfEven num den : ℚ) * den) ≤ 2 * num + den := by exact_mod_cast upper
  have lower' : 2 * (num : ℚ) ≤ 2 * ((roundHalfEven num den : ℚ) * den) + den := by
    exact_mod_cast lower
  constructor
  · have split : (num : ℚ) / den + 1 / 2 = (2 * num + den) / (2 * den) := by field_simp
    rw [split, le_div_iff₀ (by positivity)]
    linarith
  · rw [div_le_iff₀ pos']
    linarith

end Rounding

theorem cast_tenTo (n : Nat) : ((tenTo n : Nat) : ℚ) = 10 ^ n := by
  exact_mod_cast rfl

namespace Decimal

/-! ## The scale that is chosen -/

section Scale

variable {negative : Bool} {mantissa scale num den top : Nat} {decimal : Decimal}

theorem ofParts?_eq_some (h : ofParts? negative mantissa scale = some decimal) :
    decimal.negative = negative ∧ decimal.mantissa = mantissa ∧ decimal.scale = scale := by
  unfold ofParts? at h
  split at h
  · cases h
    exact ⟨rfl, rfl, rfl⟩
  · cases h

theorem ofParts?_of_fits (negative : Bool) (fits : mantissa < mantissaLimit) (small : scale ≤ 28) :
    ofParts? negative mantissa scale =
      some ⟨negative, mantissa, scale, fits, small⟩ :=
  dif_pos ⟨fits, small⟩

/-- What the decimal of a fraction is: the fraction is rounded at a scale, and a finer one would have
been out of room. -/
structure Rounds (negative : Bool) (num den top : Nat) (decimal : Decimal) : Prop where
  negative : decimal.negative = negative
  mantissa : decimal.mantissa = roundHalfEven (num * tenTo decimal.scale) den
  scale_le : decimal.scale ≤ top
  finest : decimal.scale < top →
    mantissaLimit ≤ roundHalfEven (num * tenTo (decimal.scale + 1)) den

theorem rounds_of_ofRatio? (small : top ≤ 28) (h : ofRatio? negative num den top = some decimal) :
    Rounds negative num den top decimal := by
  induction top with
  | zero =>
    obtain ⟨sign, parts, scale⟩ := ofParts?_eq_some h
    refine ⟨sign, ?_, Nat.le_of_eq scale, fun less => ?_⟩
    · rw [parts, scale, tenTo_zero, Nat.mul_one]
    · exact absurd less (Nat.not_lt_zero _)
  | succ top ih =>
    unfold ofRatio? at h
    split at h
    · next first found =>
      cases h
      obtain ⟨sign, parts, scale⟩ := ofParts?_eq_some found
      refine ⟨sign, ?_, Nat.le_of_eq scale, fun less => ?_⟩
      · rw [parts, scale]
      · exact absurd less (by omega)
    · next full =>
      have rounds := ih (Nat.le_of_succ_le small) h
      refine { rounds with scale_le := Nat.le_succ_of_le rounds.scale_le, finest := fun _ => ?_ }
      rcases Nat.lt_or_eq_of_le rounds.scale_le with less | same
      · exact rounds.finest less
      · rw [same]
        refine Nat.not_lt.1 fun fits => ?_
        rw [ofParts?_of_fits negative fits small] at full
        cases full

/-- A fraction whose digits all fit is not rounded. -/
theorem ofRatio?_of_fits (negative : Bool) (fits : num < mantissaLimit) (small : top ≤ 28) :
    ofRatio? negative num (tenTo top) top = some ⟨negative, num, top, fits, small⟩ := by
  cases top with
  | zero =>
    have whole : roundHalfEven num (tenTo 0) = num := by
      simpa [tenTo_zero] using roundHalfEven_mul_right num (tenTo_pos 0)
    unfold ofRatio?
    rw [whole, ofParts?_of_fits negative fits small]
  | succ top =>
    unfold ofRatio?
    rw [roundHalfEven_mul_right num (tenTo_pos _), ofParts?_of_fits negative fits small]

/-- A fraction has a decimal if its whole part fits. -/
theorem exists_ofRatio? (negative : Bool) (top : Nat) (fits : roundHalfEven num den < mantissaLimit) :
    ∃ decimal, ofRatio? negative num den top = some decimal := by
  induction top with
  | zero => exact ⟨_, ofParts?_of_fits negative fits (Nat.zero_le _)⟩
  | succ top ih =>
    unfold ofRatio?
    split
    · exact ⟨_, rfl⟩
    · exact ih

end Scale

/-! ## The whole part -/

/-- The digits before the point. -/
def wholePart (decimal : Decimal) : Nat :=
  decimal.mantissa / tenTo decimal.scale

theorem trunc_eq (decimal : Decimal) :
    decimal.trunc = if decimal.negative then -(decimal.wholePart : Int) else decimal.wholePart :=
  rfl

/-- A whole number that is left of a fraction after it has gone up by a tiny part of itself at
most. -/
structure IsTruncated (exact : ℚ) (whole : Nat) : Prop where
  lt_succ : exact < whole + 1
  le_add : (whole : ℚ) ≤ exact + exact / 10 ^ 28

section Whole

variable {negative : Bool} {num den top : Nat} {decimal : Decimal}

/-- Rounding never goes below the whole part of the fraction. -/
theorem Rounds.lt_wholePart_add_one (rounds : Rounds negative num den top decimal)
    (pos : 0 < den) : (num : ℚ) / den < decimal.wholePart + 1 := by
  have pos' : (0 : ℚ) < den := by exact_mod_cast pos
  have kept : num / den ≤ decimal.wholePart := by
    unfold wholePart
    rw [Nat.le_div_iff_mul_le (tenTo_pos _), rounds.mantissa]
    refine le_roundHalfEven pos ?_
    calc num / den * tenTo decimal.scale * den
      _ = num / den * den * tenTo decimal.scale := by ring
      _ ≤ num * tenTo decimal.scale := Nat.mul_le_mul_right _ (Nat.div_mul_le_self num den)
  have less : num < (decimal.wholePart + 1) * den := by
    calc num
      _ < (num / den + 1) * den := Nat.mul_comm den _ ▸ Nat.lt_mul_div_succ num pos
      _ ≤ (decimal.wholePart + 1) * den := Nat.mul_le_mul_right _ (Nat.succ_le_succ kept)
  rw [div_lt_iff₀ pos']
  exact_mod_cast less

/-- Rounding goes up by half a unit at the chosen scale at most. -/
theorem Rounds.wholePart_le (rounds : Rounds negative num den top decimal) (pos : 0 < den) :
    (decimal.wholePart : ℚ) ≤ num / den + 1 / (2 * 10 ^ decimal.scale) := by
  have unit : (0 : ℚ) < 10 ^ decimal.scale := by positivity
  have cut : decimal.wholePart * tenTo decimal.scale ≤ decimal.mantissa :=
    Nat.div_mul_le_self _ _
  have cut' : (decimal.wholePart : ℚ) * 10 ^ decimal.scale ≤ decimal.mantissa := by
    rw [← cast_tenTo]
    exact_mod_cast cut
  have near := (roundHalfEven_near (num * tenTo decimal.scale) pos).1
  rw [← rounds.mantissa] at near
  push_cast [cast_tenTo] at near
  have sum : (num : ℚ) / den + 1 / (2 * 10 ^ decimal.scale) =
      (num * 10 ^ decimal.scale / den + 1 / 2) / 10 ^ decimal.scale := by field_simp
  rw [sum, le_div_iff₀ unit]
  exact cut'.trans near

/-- When a finer scale was out of room, half a unit is a tiny part of the fraction. -/
theorem Rounds.half_unit_le (rounds : Rounds negative num den top decimal) (pos : 0 < den)
    (coarse : decimal.scale < top) :
    (1 : ℚ) / (2 * 10 ^ decimal.scale) ≤ (num : ℚ) / den / 10 ^ 28 := by
  have unit : (0 : ℚ) < 10 ^ decimal.scale := by positivity
  have full : ((mantissaLimit : Nat) : ℚ) ≤
      roundHalfEven (num * tenTo (decimal.scale + 1)) den := by
    exact_mod_cast rounds.finest coarse
  have near := (roundHalfEven_near (num * tenTo (decimal.scale + 1)) pos).1
  push_cast [cast_tenTo] at near
  have wide : (num : ℚ) * 10 ^ (decimal.scale + 1) / den = num / den * 10 ^ decimal.scale * 10 := by
    rw [pow_succ]
    ring
  rw [wide] at near
  have limit : ((mantissaLimit : Nat) : ℚ) = 79228162514264337593543950336 := by
    norm_num [mantissaLimit]
  rw [limit] at full
  have fifth : (num : ℚ) / den * (2 * 10 ^ decimal.scale) =
      num / den * 10 ^ decimal.scale * 10 / 5 := by ring
  rw [div_le_div_iff₀ (by positivity) (by positivity), fifth]
  linarith

/-- At a scale that leaves nothing to round, the whole part is not above the fraction. -/
theorem Rounds.wholePart_le_of_exact (rounds : Rounds negative num (tenTo top) top decimal)
    (same : decimal.scale = top) : (decimal.wholePart : ℚ) ≤ num / tenTo top := by
  have all : decimal.mantissa = num := by
    rw [rounds.mantissa, same]
    exact roundHalfEven_mul_right num (tenTo_pos top)
  have cut : decimal.wholePart * tenTo top ≤ num := by
    rw [← all, ← same]
    exact Nat.div_mul_le_self _ _
  rw [le_div_iff₀ (by exact_mod_cast tenTo_pos top)]
  exact_mod_cast cut

/-- Whatever scale is chosen, the whole part is that of the fraction after it has gone up by a tiny
part of itself at most: a scale of 28 is fine enough, and so is one that leaves nothing to round. -/
theorem Rounds.isTruncated (rounds : Rounds negative num den top decimal) (pos : 0 < den)
    (fine : top = 28 ∨ den = tenTo top) : IsTruncated (num / den) decimal.wholePart where
  lt_succ := rounds.lt_wholePart_add_one pos
  le_add := by
    have exact_nonneg : (0 : ℚ) ≤ (num : ℚ) / den := by positivity
    have share : (0 : ℚ) ≤ (num : ℚ) / den / 10 ^ 28 := by positivity
    have upper := rounds.wholePart_le pos
    rcases Nat.lt_or_eq_of_le rounds.scale_le with coarse | same
    · linarith [rounds.half_unit_le pos coarse]
    · rcases fine with rfl | rfl
      · rw [same] at upper
        rcases Nat.eq_zero_or_pos decimal.wholePart with none | some
        · rw [none]
          push_cast
          linarith
        · have one : (1 : ℚ) ≤ decimal.wholePart := by exact_mod_cast some
          linarith
      · linarith [rounds.wholePart_le_of_exact same]

end Whole

end Decimal
end ExpenseLedger
