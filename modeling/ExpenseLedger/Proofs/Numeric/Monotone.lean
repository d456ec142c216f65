import ExpenseLedger.Proofs.Numeric.Decimal
import Mathlib.Algebra.Order.Floor.Semifield
import Mathlib.Data.Rat.Floor

/-!
# Rounding keeps the order

Two fractions that are close to each other may be rounded at different scales, and at the coarser one
the larger of them loses more digits. It does not fall below the smaller one all the same: a scale is
given up only when the mantissa has run out of its 96 bits, and then ten times the mantissa at the next
coarser scale is above all that 96 bits hold; and a decimal that stops at a coarse scale with room to
spare has lost nothing. So the decimals of two fractions, and their whole parts, stand in the order of
the fractions.
-/

namespace ExpenseLedger

/-! ## Rounding half to even -/

section Rounding

variable {num den num' den' whole : Nat}

/-- A quotient is rounded to more than a whole number if it is above the middle of the step up from
there, or in the middle when the step starts at an odd number. -/
theorem succ_le_roundHalfEven_iff (pos : 0 < den) :
    whole + 1 ≤ roundHalfEven num den ↔
      (2 * whole + 1) * den < 2 * num ∨ (2 * whole + 1) * den = 2 * num ∧ whole % 2 = 1 := by
  have split := Nat.div_add_mod num den
  have less := Nat.mod_lt num pos
  have middle : (2 * whole + 1) * den = 2 * (den * whole) + den := by ring
  rcases Nat.lt_trichotomy whole (num / den) with below | rfl | above
  · have kept : den * (whole + 1) ≤ den * (num / den) := Nat.mul_le_mul_left den below
    rw [Nat.mul_add, Nat.mul_one] at kept
    refine ⟨fun _ => .inl (by omega), fun _ => ?_⟩
    rcases roundHalfEven_eq_or num den with same | up <;> omega
  · unfold roundHalfEven
    dsimp only
    split <;> omega
  · have kept : den * (num / den + 1) ≤ den * whole := Nat.mul_le_mul_left den above
    rw [Nat.mul_add, Nat.mul_one] at kept
    refine ⟨fun up => ?_, fun up => ?_⟩
    · rcases roundHalfEven_eq_or num den with same | up <;> omega
    · omega

theorem lt_roundHalfEven_iff (pos : 0 < den) :
    whole < roundHalfEven num den ↔
      (whole : ℚ) + 1 / 2 < num / den ∨ (whole : ℚ) + 1 / 2 = num / den ∧ whole % 2 = 1 := by
  have pos' : (0 : ℚ) < den := by exact_mod_cast pos
  have middle : (whole : ℚ) + 1 / 2 = (2 * whole + 1) / 2 := by ring
  rw [Nat.lt_iff_add_one_le, succ_le_roundHalfEven_iff pos, middle,
    div_lt_div_iff₀ two_pos pos', div_eq_div_iff two_ne_zero pos'.ne', mul_comm (num : ℚ)]
  norm_cast

/-- Rounding depends on the quotient alone, and keeps the order. -/
theorem roundHalfEven_mono (pos : 0 < den) (pos' : 0 < den')
    (le : (num : ℚ) / den ≤ num' / den') : roundHalfEven num den ≤ roundHalfEven num' den' := by
  cases rounded : roundHalfEven num den with
  | zero => exact Nat.zero_le _
  | succ whole =>
    have up : whole < roundHalfEven num den := by omega
    refine (lt_roundHalfEven_iff pos').2 ?_
    rcases (lt_roundHalfEven_iff pos).1 up with above | ⟨tie, odd⟩
    · exact .inl (above.trans_le le)
    · exact (tie.trans_le le).lt_or_eq.imp_right fun same => ⟨same, odd⟩

theorem roundHalfEven_one (whole : Nat) : roundHalfEven whole 1 = whole := by
  simpa using roundHalfEven_mul_right whole Nat.one_pos

/-- Rounding does not pass a whole number above the quotient. -/
theorem roundHalfEven_le (pos : 0 < den) (le : (num : ℚ) / den ≤ whole) :
    roundHalfEven num den ≤ whole := by
  rw [← roundHalfEven_one whole]
  exact roundHalfEven_mono pos Nat.one_pos (by simpa using le)

/-- Rounding does not pass a whole number below the quotient. -/
theorem cast_le_roundHalfEven (pos : 0 < den) (le : (whole : ℚ) ≤ num / den) :
    whole ≤ roundHalfEven num den := by
  rw [← roundHalfEven_one whole]
  exact roundHalfEven_mono Nat.one_pos pos (by simpa using le)

end Rounding

namespace Decimal

/-- The number that a decimal is, without its sign. -/
def magnitude (decimal : Decimal) : ℚ :=
  decimal.mantissa / 10 ^ decimal.scale

theorem wholePart_eq_floor (decimal : Decimal) : decimal.wholePart = ⌊decimal.magnitude⌋₊ := by
  unfold wholePart magnitude
  rw [← cast_tenTo, Nat.floor_div_eq_div]

/-- A decimal at a finer scale has the mantissa with zeros appended. -/
theorem magnitude_eq_of_scale_le (decimal : Decimal) {scale : Nat} (finer : decimal.scale ≤ scale) :
    decimal.magnitude = (decimal.mantissa * tenTo (scale - decimal.scale) : Nat) / 10 ^ scale := by
  have split : (10 : ℚ) ^ scale = 10 ^ (scale - decimal.scale) * 10 ^ decimal.scale := by
    rw [← pow_add, Nat.sub_add_cancel finer]
  unfold magnitude
  push_cast [cast_tenTo]
  rw [split, mul_comm (decimal.mantissa : ℚ), mul_div_mul_left _ _ (by positivity)]

namespace Rounds

variable {negative negative' : Bool} {num num' den den' top top' scale : Nat}
  {decimal decimal' : Decimal}

/-- At a finer scale than the one that was chosen a fraction has no room, unless there is nothing left of
it to round. -/
theorem full_or_exact (rounds : Rounds negative num den top decimal) (pos : 0 < den)
    (fine : top = 28 ∨ den = tenTo top) (finer : decimal.scale < scale) (small : scale ≤ 28) :
    mantissaLimit ≤ roundHalfEven (num * tenTo scale) den ∨ decimal.magnitude = num / den := by
  rcases Nat.lt_or_eq_of_le rounds.scale_le with coarse | same
  · refine .inl ((rounds.finest coarse).trans (roundHalfEven_mono pos pos ?_))
    have more : num * tenTo (decimal.scale + 1) ≤ num * tenTo scale :=
      Nat.mul_le_mul_left num (Nat.pow_le_pow_right (by decide) finer)
    have more' : ((num * tenTo (decimal.scale + 1) : Nat) : ℚ) ≤ ((num * tenTo scale : Nat) : ℚ) := by
      exact_mod_cast more
    exact div_le_div_of_nonneg_right more' (Nat.cast_nonneg den)
  · have exact_den : den = tenTo top := fine.resolve_left (by omega)
    have all : decimal.mantissa = num := by
      rw [rounds.mantissa, same, exact_den]
      exact roundHalfEven_mul_right num (tenTo_pos top)
    refine .inr ?_
    unfold magnitude
    rw [all, same, exact_den, cast_tenTo]

/-- A fraction that its decimal is exactly is a whole number of units at any finer scale. -/
theorem cast_div_of_exact (exact : decimal.magnitude = num / den) (finer : decimal.scale ≤ scale) :
    ((num * tenTo scale : Nat) : ℚ) / den =
      (decimal.mantissa * tenTo (scale - decimal.scale) : Nat) := by
  calc ((num * tenTo scale : Nat) : ℚ) / den
    _ = decimal.magnitude * 10 ^ scale := by
      rw [exact]
      push_cast [cast_tenTo]
      ring
    _ = (decimal.mantissa * tenTo (scale - decimal.scale) : Nat) := by
      rw [decimal.magnitude_eq_of_scale_le finer]
      exact div_mul_cancel₀ _ (by positivity)

/-- A fraction that has no room at the next finer scale fills its own up to the last digit. -/
theorem limit_le_mul_ten (rounds : Rounds negative num den top decimal) (pos : 0 < den)
    (full : mantissaLimit ≤ roundHalfEven (num * tenTo (decimal.scale + 1)) den) :
    mantissaLimit ≤ decimal.mantissa * 10 := by
  have full' : ((mantissaLimit : Nat) : ℚ) ≤
      roundHalfEven (num * tenTo (decimal.scale + 1)) den := by
    exact_mod_cast full
  have finer := (roundHalfEven_near (num * tenTo (decimal.scale + 1)) pos).1
  have near := (roundHalfEven_near (num * tenTo decimal.scale) pos).2
  rw [← rounds.mantissa] at near
  have wide : ((num * tenTo (decimal.scale + 1) : Nat) : ℚ) / den =
      ((num * tenTo decimal.scale : Nat) : ℚ) / den * 10 := by
    rw [tenTo_succ]
    push_cast
    ring
  rw [wide] at finer
  have limit : ((mantissaLimit : Nat) : ℚ) = 79228162514264337593543950336 := by
    norm_num [mantissaLimit]
  rw [limit] at full'
  -- The limit ends in a six, so what is within five of it rounds up to the ten above it.
  have less : ((7922816251426433759354395033 : Nat) : ℚ) < decimal.mantissa := by
    push_cast
    linarith
  have less' : 7922816251426433759354395033 < decimal.mantissa := by exact_mod_cast less
  unfold mantissaLimit
  omega

section Order

variable (rounds : Rounds negative num den top decimal)
  (rounds' : Rounds negative' num' den' top' decimal') (pos : 0 < den) (pos' : 0 < den')
  (le : (num : ℚ) / den ≤ num' / den')

include le in
theorem le_cast (scale : Nat) :
    ((num * tenTo scale : Nat) : ℚ) / den ≤ ((num' * tenTo scale : Nat) : ℚ) / den' := by
  push_cast
  rw [mul_div_right_comm, mul_div_right_comm (num' : ℚ)]
  exact mul_le_mul_of_nonneg_right le (Nat.cast_nonneg _)

include rounds rounds' pos pos' le

theorem magnitude_le_of_scale_eq (same : decimal.scale = decimal'.scale) :
    decimal.magnitude ≤ decimal'.magnitude := by
  have mantissas : decimal.mantissa ≤ decimal'.mantissa := by
    rw [rounds.mantissa, rounds'.mantissa, same]
    exact roundHalfEven_mono pos pos' (le_cast le _)
  unfold magnitude
  rw [same]
  exact div_le_div_of_nonneg_right (by exact_mod_cast mantissas) (by positivity)

/-- The larger fraction is at the coarser scale. -/
theorem magnitude_le_of_coarser (fine' : top' = 28 ∨ den' = tenTo top')
    (coarser : decimal'.scale < decimal.scale) : decimal.magnitude ≤ decimal'.magnitude := by
  rw [decimal'.magnitude_eq_of_scale_le coarser.le]
  refine div_le_div_of_nonneg_right (Nat.cast_le.2 ?_) (by positivity)
  rcases rounds'.full_or_exact pos' fine' (Nat.lt_succ_self _) (coarser.trans_le decimal.scale_le) with
    full | exact
  · calc decimal.mantissa
      _ ≤ mantissaLimit := decimal.mantissa_lt.le
      _ ≤ decimal'.mantissa * tenTo 1 := rounds'.limit_le_mul_ten pos' full
      _ ≤ decimal'.mantissa * tenTo (decimal.scale - decimal'.scale) :=
        Nat.mul_le_mul_left _ (Nat.pow_le_pow_right (by decide) (Nat.sub_pos_of_lt coarser))
  · rw [rounds.mantissa]
    refine roundHalfEven_le pos ?_
    rw [← cast_div_of_exact exact coarser.le]
    exact le_cast le _

/-- The larger fraction is at the finer scale. -/
theorem magnitude_le_of_finer (fine : top = 28 ∨ den = tenTo top)
    (finer : decimal.scale < decimal'.scale) : decimal.magnitude ≤ decimal'.magnitude := by
  rw [decimal.magnitude_eq_of_scale_le finer.le]
  refine div_le_div_of_nonneg_right (Nat.cast_le.2 ?_) (by positivity)
  rcases rounds.full_or_exact pos fine finer decimal'.scale_le with full | exact
  · have above := full.trans (roundHalfEven_mono pos pos' (le_cast le _))
    rw [← rounds'.mantissa] at above
    exact absurd decimal'.mantissa_lt (Nat.not_lt.2 above)
  · rw [rounds'.mantissa]
    refine cast_le_roundHalfEven pos' ?_
    rw [← cast_div_of_exact exact finer.le]
    exact le_cast le _

/-- Decimals stand in the order of the fractions that they are made of, whatever scales were chosen for
them. -/
theorem magnitude_le (fine : top = 28 ∨ den = tenTo top) (fine' : top' = 28 ∨ den' = tenTo top') :
    decimal.magnitude ≤ decimal'.magnitude := by
  rcases Nat.lt_trichotomy decimal.scale decimal'.scale with finer | same | coarser
  · exact rounds.magnitude_le_of_finer rounds' pos pos' le fine finer
  · exact rounds.magnitude_le_of_scale_eq rounds' pos pos' le same
  · exact rounds.magnitude_le_of_coarser rounds' pos pos' le fine' coarser

end Order

end Rounds

/-! ## The whole part -/

/-- The whole number that is left when a number is made a decimal and its digits after the point are cut
off. -/
def Cuts (exact : ℚ) (whole : Nat) : Prop :=
  ∃ negative num den top decimal, Rounds negative num den top decimal ∧ 0 < den ∧
    (top = 28 ∨ den = tenTo top) ∧ exact = num / den ∧ whole = decimal.wholePart

theorem Cuts.eq_zero {whole : Nat} (cuts : Cuts 0 whole) : whole = 0 := by
  obtain ⟨_, _, _, _, _, rounds, pos, fine, same, rfl⟩ := cuts
  have truncated := rounds.isTruncated pos fine
  rw [← same] at truncated
  have none := truncated.le_add
  rw [zero_div, zero_add] at none
  exact Nat.le_zero.1 (by exact_mod_cast none)

theorem Cuts.lt_succ {exact : ℚ} {whole : Nat} (cuts : Cuts exact whole) : exact < whole + 1 := by
  obtain ⟨_, _, _, _, _, rounds, pos, fine, rfl, rfl⟩ := cuts
  exact (rounds.isTruncated pos fine).lt_succ

/-- Of two numbers the smaller one has the smaller whole part left. -/
theorem Cuts.mono {exact exact' : ℚ} {whole whole' : Nat} (cuts : Cuts exact whole)
    (cuts' : Cuts exact' whole') (le : exact ≤ exact') : whole ≤ whole' := by
  obtain ⟨_, _, _, _, decimal, rounds, pos, fine, rfl, rfl⟩ := cuts
  obtain ⟨_, _, _, _, decimal', rounds', pos', fine', rfl, rfl⟩ := cuts'
  rw [wholePart_eq_floor, wholePart_eq_floor]
  exact Nat.floor_mono (rounds.magnitude_le rounds' pos pos' le fine fine')

theorem Cuts.unique {exact : ℚ} {whole whole' : Nat} (cuts : Cuts exact whole)
    (cuts' : Cuts exact whole') : whole = whole' :=
  Nat.le_antisymm (cuts.mono cuts' le_rfl) (cuts'.mono cuts le_rfl)

end Decimal
end ExpenseLedger
