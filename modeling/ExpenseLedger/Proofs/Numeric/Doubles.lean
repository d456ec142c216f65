import ExpenseLedger.Numeric.Decimal.Binary
import ExpenseLedger.Proofs.Numeric.Decimal

/-!
# Which doubles have a decimal

A positive double below `2 ^ 96` has a decimal, and that is not zero exactly if the double is above
`85 / 9 · 10 ^ -29`. Trading powers of two for powers of ten is exact but for halvings of a mantissa
that has no room left, and each of these loses at most one part in a fifth of the largest mantissa
(`Halved`). The digits behind the 28th place are then dropped one by one, each time rounding by the
last one, so that something is left of a mantissa of `n + 1` places too many exactly if it is above
`85 / 9 · 10 ^ n` (`coarsen_pos_iff`). What was lost before does not matter there, since near the
threshold two doubles are much farther apart.
-/

namespace ExpenseLedger

/-- The number that a double stands for; infinities, and what is not a number, stand for none. -/
def Binary64.toRat : Binary64 → ℚ
  | .finite negative significand exponent _ =>
    (if negative then -1 else 1) * (significand * 2 ^ exponent)
  | _ => 0

namespace Decimal
namespace Scaled

variable {x y : Scaled} {count gain mantissa scale : ℕ}

theorem mantissaLimit_eq : mantissaLimit = 2 ^ 96 := rfl

/-! ## Halvings -/

/-- What is left of a number after halvings of which some have become powers of ten: every halving
that is paid for by a five is exact, and any other loses little. -/
structure Halved (count : ℕ) (x y : Scaled) (gain : ℕ) : Prop where
  gain_le : gain ≤ count
  exponent : y.exponent = x.exponent + gain
  pos : 0 < y.mantissa
  fits : y.mantissa < mantissaLimit
  le : (y.mantissa : ℚ) * 10 ^ gain ≤ x.mantissa * 5 ^ count
  near : (1 - 5 * count / mantissaLimit) * (x.mantissa * 5 ^ count) ≤ (y.mantissa : ℚ) * 10 ^ gain

theorem halved_zero (pos : 0 < x.mantissa) (fits : x.mantissa < mantissaLimit) :
    Halved 0 x x 0 where
  gain_le := Nat.le_refl 0
  exponent := by simp
  pos := pos
  fits := fits
  le := by simp
  near := by simp

/-- The share that may have been lost grows with each halving. -/
theorem share_le (count : ℕ) : (1 : ℚ) - 5 * (count + 1 : ℕ) / mantissaLimit ≤
    1 - 5 * count / mantissaLimit - 5 / mantissaLimit := by
  push_cast
  exact le_of_eq (by ring)

theorem cast_mantissaLimit_pos : (0 : ℚ) < mantissaLimit := by
  norm_num [mantissaLimit]

/-- A halving that is paid for by a factor of five. -/
theorem Halved.of_five (halved : Halved count { x with mantissa := 5 * x.mantissa } y gain) :
    Halved (count + 1) x y gain := by
  have same : ((5 * x.mantissa : ℕ) : ℚ) * 5 ^ count = x.mantissa * 5 ^ (count + 1) := by
    push_cast
    ring
  have le := halved.le
  have near := halved.near
  dsimp only at le near
  rw [same] at le near
  refine { halved with gain_le := Nat.le_succ_of_le halved.gain_le, le, near := ?_ }
  have whole : (0 : ℚ) ≤ x.mantissa * 5 ^ (count + 1) := by positivity
  have share : (1 : ℚ) - 5 * (count + 1 : ℕ) / mantissaLimit ≤ 1 - 5 * count / mantissaLimit := by
    have := share_le count
    have : (0 : ℚ) ≤ 5 / mantissaLimit := by positivity
    linarith
  exact (mul_le_mul_of_nonneg_right share whole).trans near

/-- Half of a mantissa without its last bit; the bit is little if the mantissa is large. -/
theorem half_near (large : mantissa % 2 = 1 → mantissaLimit ≤ 5 * mantissa) :
    (1 - 5 / mantissaLimit) * mantissa ≤ 2 * ((mantissa / 2 : ℕ) : ℚ) ∧
      2 * ((mantissa / 2 : ℕ) : ℚ) ≤ mantissa := by
  have limit := cast_mantissaLimit_pos
  have cut : 2 * (mantissa / 2) + mantissa % 2 = mantissa := Nat.div_add_mod mantissa 2
  rcases Nat.mod_two_eq_zero_or_one mantissa with even | odd
  · rw [even, Nat.add_zero] at cut
    have cut : 2 * ((mantissa / 2 : ℕ) : ℚ) = mantissa := by exact_mod_cast cut
    have share : (0 : ℚ) ≤ 5 / mantissaLimit * mantissa := by positivity
    constructor <;> linarith
  · rw [odd] at cut
    have cut : 2 * ((mantissa / 2 : ℕ) : ℚ) + 1 = mantissa := by exact_mod_cast cut
    have large : (mantissaLimit : ℚ) ≤ 5 * mantissa := by exact_mod_cast large odd
    have share : 1 ≤ (5 : ℚ) / mantissaLimit * mantissa := by
      rw [div_mul_eq_mul_div, le_div_iff₀ limit]
      linarith
    constructor <;> linarith

/-- A halving of the mantissa itself. -/
theorem Halved.of_half
    (halved : Halved count { mantissa := x.mantissa / 2, exponent := x.exponent + 1 } y gain)
    (large : x.mantissa % 2 = 1 → mantissaLimit ≤ 5 * x.mantissa)
    (some : 5 * count ≤ mantissaLimit) :
    Halved (count + 1) x y (gain + 1) := by
  have limit := cast_mantissaLimit_pos
  obtain ⟨low, high⟩ := half_near large
  have five : (0 : ℚ) < 5 ^ (count + 1) := by positivity
  constructor
  case gain_le => exact Nat.succ_le_succ halved.gain_le
  case exponent =>
    rw [halved.exponent]
    push_cast
    ring
  case pos => exact halved.pos
  case fits => exact halved.fits
  case le =>
    calc (y.mantissa : ℚ) * 10 ^ (gain + 1)
      _ = y.mantissa * 10 ^ gain * 10 := by ring
      _ ≤ ((x.mantissa / 2 : ℕ) : ℚ) * 5 ^ count * 10 :=
          mul_le_mul_of_nonneg_right halved.le (by norm_num)
      _ = 2 * ((x.mantissa / 2 : ℕ) : ℚ) * 5 ^ (count + 1) := by ring
      _ ≤ x.mantissa * 5 ^ (count + 1) := by gcongr
  case near =>
    have kept : (0 : ℚ) ≤ 1 - 5 * count / mantissaLimit := by
      rw [sub_nonneg, div_le_one limit]
      exact_mod_cast some
    have shares : (1 : ℚ) - 5 * (count + 1 : ℕ) / mantissaLimit ≤
        (1 - 5 * count / mantissaLimit) * (1 - 5 / mantissaLimit) := by
      have product : (0 : ℚ) ≤ 5 * count / mantissaLimit * (5 / mantissaLimit) := by positivity
      have := share_le count
      linarith
    calc (1 - 5 * ((count + 1 : ℕ) : ℚ) / mantissaLimit) * (x.mantissa * 5 ^ (count + 1))
      _ ≤ (1 - 5 * count / mantissaLimit) * (1 - 5 / mantissaLimit) *
          (x.mantissa * 5 ^ (count + 1)) := by gcongr
      _ = (1 - 5 * count / mantissaLimit) * 5 ^ (count + 1) *
          ((1 - 5 / mantissaLimit) * x.mantissa) := by ring
      _ ≤ (1 - 5 * count / mantissaLimit) * 5 ^ (count + 1) *
          (2 * ((x.mantissa / 2 : ℕ) : ℚ)) := by gcongr
      _ = (1 - 5 * count / mantissaLimit) * (((x.mantissa / 2 : ℕ) : ℚ) * 5 ^ count) * 10 := by ring
      _ ≤ y.mantissa * 10 ^ gain * 10 := mul_le_mul_of_nonneg_right halved.near (by norm_num)
      _ = y.mantissa * 10 ^ (gain + 1) := by ring

theorem exists_halved (pos : 0 < x.mantissa) (fits : x.mantissa < mantissaLimit)
    (some : 5 * count ≤ mantissaLimit) : ∃ gain, Halved count x (halve count x) gain := by
  induction count generalizing x with
  | zero => exact ⟨0, halved_zero pos fits⟩
  | succ count ih =>
    have fewer : 5 * count ≤ mantissaLimit := by omega
    unfold halve
    split
    · next even =>
      obtain ⟨gain, halved⟩ := ih (x := { mantissa := x.mantissa / 2, exponent := x.exponent + 1 })
        (by dsimp only; omega) (by dsimp only; omega) fewer
      exact ⟨gain + 1, halved.of_half (fun odd => by omega) fewer⟩
    · next odd =>
      split
      · next room =>
        obtain ⟨gain, halved⟩ := ih (x := { x with mantissa := 5 * x.mantissa })
          (by dsimp only; omega) room fewer
        exact ⟨gain, halved.of_five⟩
      · next full =>
        obtain ⟨gain, halved⟩ := ih
          (x := { mantissa := x.mantissa / 2, exponent := x.exponent + 1 })
          (by unfold mantissaLimit at full; dsimp only; omega) (by dsimp only; omega) fewer
        exact ⟨gain + 1, halved.of_half (fun _ => Nat.not_lt.1 full) fewer⟩

/-! ## Doublings -/

/-- A number that is doubled as often as its exponent says becomes whole, if there is room for it. -/
theorem double?_of_exponent (fits : mantissa < mantissaLimit) (count : ℕ) :
    double? count { mantissa, exponent := count } =
      if mantissa * 2 ^ count < mantissaLimit then
        some { mantissa := mantissa * 2 ^ count, exponent := 0 }
      else none := by
  induction count generalizing mantissa with
  | zero => simp [double?, fits]
  | succ count ih =>
    have again : 2 * mantissa * 2 ^ count = mantissa * 2 ^ (count + 1) := by ring
    unfold double?
    dsimp only
    split
    · next room =>
      have exponent : ((count + 1 : ℕ) : ℤ) - 1 = count := by omega
      rw [exponent, ih room, again]
    · next full =>
      have beyond : ¬mantissa * 2 ^ (count + 1) < mantissaLimit := by
        rw [← again]
        have : 2 * mantissa ≤ 2 * mantissa * 2 ^ count := Nat.le_mul_of_pos_right _ (by positivity)
        omega
      rw [if_neg beyond, if_pos (by omega)]

/-! ## Dropping digits -/

theorem dropDigit_eq (mantissa : ℕ) : dropDigit mantissa = (mantissa + 5) / 10 := by
  unfold dropDigit
  split <;> omega

theorem dropDigit_le (mantissa : ℕ) : dropDigit mantissa ≤ mantissa := by
  rw [dropDigit_eq]
  omega

/-- Something is left of a mantissa exactly if it is above a threshold. -/
theorem coarsen_pos_iff (count mantissa : ℕ) :
    0 < coarsen (count + 1) mantissa ↔ 85 * 10 ^ count < 9 * mantissa := by
  induction count generalizing mantissa with
  | zero =>
    unfold coarsen
    split
    · simp only [pow_zero]
      omega
    · show 0 < dropDigit mantissa ↔ _
      rw [dropDigit_eq]
      simp only [pow_zero]
      omega
  | succ count ih =>
    have grown : 10 ^ (count + 1) = 10 ^ count * 10 := rfl
    -- The threshold is a whole number and 4 / 9 more, since a power of ten leaves 1 over by nines.
    have rest : 10 ^ count % 9 = 1 := by
      rw [Nat.pow_mod]
      simp
    unfold coarsen
    split
    · omega
    · rw [ih, dropDigit_eq]
      omega

theorem coarsen_le (count mantissa : ℕ) : coarsen count mantissa ≤ mantissa := by
  induction count generalizing mantissa with
  | zero => exact Nat.le_refl _
  | succ count ih =>
    unfold coarsen
    split
    · exact Nat.zero_le _
    · exact (ih _).trans (dropDigit_le _)

/-- The second mantissa is not above the first, both are zero or neither is, and the scale has not
grown. -/
structure Trimmed (mantissa scale : ℕ) (parts : ℕ × ℕ) : Prop where
  le : parts.1 ≤ mantissa
  pos_iff : 0 < parts.1 ↔ 0 < mantissa
  scale_le : parts.2 ≤ scale

theorem trimmed_shorten (mantissa scale : ℕ) : Trimmed mantissa scale (shorten mantissa scale) := by
  induction scale generalizing mantissa with
  | zero => exact ⟨Nat.le_refl _, Iff.rfl, Nat.le_refl _⟩
  | succ scale ih =>
    unfold shorten
    split
    · next long =>
      obtain ⟨le, pos_iff, scale_le⟩ := ih (dropDigit mantissa)
      have positive : 0 < dropDigit mantissa ↔ 0 < mantissa := by
        unfold Binary64.fullSignificand at long
        rw [dropDigit_eq]
        omega
      exact ⟨le.trans (dropDigit_le _), pos_iff.trans positive, Nat.le_succ_of_le scale_le⟩
    · exact ⟨Nat.le_refl _, Iff.rfl, Nat.le_refl _⟩

theorem trimmed_dropZeros (mantissa scale : ℕ) :
    Trimmed mantissa scale (dropZeros mantissa scale) := by
  induction scale generalizing mantissa with
  | zero => exact ⟨Nat.le_refl _, Iff.rfl, Nat.le_refl _⟩
  | succ scale ih =>
    unfold dropZeros
    split
    · next zero =>
      obtain ⟨le, pos_iff, scale_le⟩ := ih (mantissa / 10)
      exact ⟨le.trans (Nat.div_le_self _ _), pos_iff.trans (by omega), Nat.le_succ_of_le scale_le⟩
    · exact ⟨Nat.le_refl _, Iff.rfl, Nat.le_refl _⟩

/-! ## What is left of a number -/

/-- A number without a positive power of ten has a decimal; it is zero if no digit is left. -/
theorem exists_toDecimal? (negative : Bool) (low : x.exponent ≤ 0)
    (fits : x.mantissa < mantissaLimit) :
    ∃ decimal, toDecimal? negative x = some decimal ∧ decimal.negative = negative ∧
      (0 < decimal.mantissa ↔ 0 < coarsen ((-x.exponent).toNat - maxScale) x.mantissa) := by
  have none : x.exponent.toNat = 0 := Int.toNat_of_nonpos low
  unfold toDecimal?
  rw [none]
  simp only [absorb?, Option.bind_eq_bind, Option.bind_some]
  generalize coarsened : coarsen ((-x.exponent).toNat - maxScale) x.mantissa = coarse
  generalize placed : (if (decide (coarse = 0) && decide (maxScale < (-x.exponent).toNat)) = true then 0
    else min maxScale (-x.exponent).toNat) = scale
  have small : scale ≤ 28 := by
    rw [← placed]
    split
    · exact Nat.zero_le _
    · exact Nat.min_le_left _ _
  have short := trimmed_shorten coarse scale
  have plain := trimmed_dropZeros (shorten coarse scale).1 (shorten coarse scale).2
  have room : (dropZeros (shorten coarse scale).1 (shorten coarse scale).2).1 < mantissaLimit := by
    have le := plain.le.trans (short.le.trans (coarsened ▸ coarsen_le _ _))
    exact Nat.lt_of_le_of_lt le fits
  have fine : (dropZeros (shorten coarse scale).1 (shorten coarse scale).2).2 ≤ 28 :=
    plain.scale_le.trans (short.scale_le.trans small)
  exact ⟨_, ofParts?_of_fits negative room fine, rfl, plain.pos_iff.trans short.pos_iff⟩

/-- The largest number of which nothing is left. -/
def vanishing : ℚ := 85 / (9 * 10 ^ 29)

/-- Doubles above the threshold are so much above it that what halvings lose does not matter. -/
theorem vanishing_lt_near (small : mantissa < 2 * Binary64.fullSignificand)
    (full : Binary64.fullSignificand ≤ mantissa ∨ count = 1074)
    (above : vanishing * 2 ^ count < mantissa) :
    vanishing * 2 ^ count < (1 - 5 * count / mantissaLimit) * mantissa := by
  have small : (mantissa : ℚ) < 2 ^ 53 := by exact_mod_cast small
  have few : count ≤ 146 := by
    by_contra many
    have grown : (2 : ℚ) ^ 147 ≤ 2 ^ count := pow_le_pow_right₀ (by norm_num) (by omega)
    have : vanishing * 2 ^ 147 ≤ vanishing * 2 ^ count :=
      mul_le_mul_of_nonneg_left grown (by norm_num [vanishing])
    have : (2 : ℚ) ^ 53 ≤ vanishing * 2 ^ 147 := by norm_num [vanishing]
    linarith
  have full : (2 : ℚ) ^ 52 ≤ mantissa := by
    have := full.resolve_right (by omega)
    exact_mod_cast this
  have share : (1 : ℚ) - 5 * 146 / mantissaLimit ≤ 1 - 5 * count / mantissaLimit := by
    have : (count : ℚ) ≤ 146 := by exact_mod_cast few
    gcongr
  refine lt_of_lt_of_le ?_ (mul_le_mul_of_nonneg_right share (Nat.cast_nonneg _))
  rcases Nat.lt_or_eq_of_le few with less | rfl
  · have grown : (2 : ℚ) ^ count ≤ 2 ^ 145 := pow_le_pow_right₀ (by norm_num) (by omega)
    calc vanishing * 2 ^ count
      _ ≤ vanishing * 2 ^ 145 := mul_le_mul_of_nonneg_left grown (by norm_num [vanishing])
      _ < (1 - 5 * 146 / mantissaLimit) * 2 ^ 52 := by norm_num [vanishing, mantissaLimit]
      _ ≤ (1 - 5 * 146 / mantissaLimit) * mantissa :=
        mul_le_mul_of_nonneg_left full (by norm_num [mantissaLimit])
  · -- The least significand above the threshold is half a unit above it.
    have next : 8424725963889347 ≤ mantissa := by
      by_contra less
      have below : mantissa ≤ 8424725963889346 := by omega
      have : (mantissa : ℚ) ≤ 8424725963889346 := by exact_mod_cast below
      have : (8424725963889346 : ℚ) < vanishing * 2 ^ 146 := by norm_num [vanishing]
      linarith
    have next : (8424725963889347 : ℚ) ≤ mantissa := by exact_mod_cast next
    calc vanishing * 2 ^ 146
      _ < (1 - 5 * 146 / mantissaLimit) * 8424725963889347 := by
        norm_num [vanishing, mantissaLimit]
      _ ≤ (1 - 5 * 146 / mantissaLimit) * mantissa :=
        mul_le_mul_of_nonneg_left next (by norm_num [mantissaLimit])

/-- Of a double with places behind the point something is left exactly if it is above the threshold. -/
theorem Halved.coarsen_pos_iff
    (halved : Halved count { mantissa, exponent := -count } y gain)
    (small : mantissa < 2 * Binary64.fullSignificand)
    (full : Binary64.fullSignificand ≤ mantissa ∨ count = 1074) :
    0 < coarsen ((-y.exponent).toNat - maxScale) y.mantissa ↔
      vanishing * 2 ^ count < mantissa := by
  have gain_le := halved.gain_le
  have exponent := halved.exponent
  dsimp only at exponent
  have le := halved.le
  have near := halved.near
  dsimp only at le near
  have five : (0 : ℚ) < 5 ^ count := by positivity
  have ten : (10 : ℚ) ^ count = 2 ^ count * 5 ^ count := by rw [← mul_pow]; norm_num
  have places : (-y.exponent).toNat - maxScale = count - gain - 28 := by
    rw [exponent]
    unfold maxScale
    omega
  rw [places]
  by_cases few : count - gain ≤ 28
  · -- All places are kept, and the mantissa has at least one unit in the last of them.
    rw [Nat.sub_eq_zero_of_le few]
    refine iff_of_true halved.pos ?_
    have one : (1 : ℚ) ≤ y.mantissa := by exact_mod_cast halved.pos
    have split : (10 : ℚ) ^ count ≤ 10 ^ gain * 10 ^ 28 := by
      rw [← pow_add]
      exact pow_le_pow_right₀ (by norm_num) (by omega)
    have unit : (10 : ℚ) ^ gain ≤ mantissa * 5 ^ count :=
      (le_mul_of_one_le_left (by positivity) one).trans le
    have whole : (2 : ℚ) ^ count * 5 ^ count ≤ mantissa * 10 ^ 28 * 5 ^ count := by
      rw [← ten]
      linarith
    have whole : (2 : ℚ) ^ count ≤ mantissa * 10 ^ 28 := le_of_mul_le_mul_right whole five
    have power : (0 : ℚ) < 2 ^ count := by positivity
    have ratio : vanishing * 10 ^ 28 < 1 := by norm_num [vanishing]
    have pos : (0 : ℚ) < mantissa := by
      by_contra notPos
      have := mul_nonpos_of_nonpos_of_nonneg (not_lt.1 notPos) (by norm_num : (0 : ℚ) ≤ 10 ^ 28)
      linarith
    calc vanishing * 2 ^ count
      _ ≤ vanishing * (mantissa * 10 ^ 28) := mul_le_mul_of_nonneg_left whole (by norm_num [vanishing])
      _ = vanishing * 10 ^ 28 * mantissa := by ring
      _ < mantissa := mul_lt_of_lt_one_left pos ratio
  · obtain ⟨more, isMore⟩ : ∃ more, count - gain - 28 = more + 1 := ⟨count - gain - 29, by omega⟩
    rw [isMore, Scaled.coarsen_pos_iff]
    have split : (10 : ℚ) ^ count = 10 ^ more * 10 ^ gain * 10 ^ 29 := by
      rw [← pow_add, ← pow_add]
      congr 1
      omega
    have gains : (0 : ℚ) < 10 ^ gain := by positivity
    have scaled : 85 * 10 ^ more < 9 * y.mantissa ↔
        vanishing * 2 ^ count * 5 ^ count < y.mantissa * 10 ^ gain := by
      have expand : vanishing * 2 ^ count * 5 ^ count = 85 * 10 ^ more * 10 ^ gain / 9 := by
        rw [mul_assoc, ← ten, split]
        unfold vanishing
        field_simp
      have sides : (y.mantissa : ℚ) * 10 ^ gain * 9 = 9 * y.mantissa * 10 ^ gain := by ring
      rw [expand, div_lt_iff₀ (by norm_num), sides, mul_lt_mul_iff_of_pos_right gains]
      exact_mod_cast Iff.rfl
    rw [scaled]
    constructor
    · intro left
      exact lt_of_mul_lt_mul_right (left.trans_le le) five.le
    · intro above
      have enough := mul_lt_mul_of_pos_right (vanishing_lt_near small full above) five
      rw [mul_assoc (1 - _)] at enough
      exact enough.trans_le near

end Scaled

/-! ## Doubles -/

section Doubles

variable (negative : Bool) {significand : ℕ} {exponent : ℤ}
  (canonical : Binary64.Canonical significand exponent) (some : significand ≠ 0)

include some

/-- A double without places behind the point has a decimal if there is room for it. -/
theorem ofBinary64?_of_nonneg (whole : 0 ≤ exponent) :
    ((significand : ℚ) * 2 ^ exponent < 2 ^ 96 ∧
      ∃ decimal, ofBinary64? (.finite negative significand exponent canonical) = .some decimal ∧
        decimal.negative = negative ∧ 0 < decimal.mantissa) ∨
      (¬(significand : ℚ) * 2 ^ exponent < 2 ^ 96 ∧
        ofBinary64? (.finite negative significand exponent canonical) = none) := by
  obtain ⟨count, rfl⟩ := Int.eq_ofNat_of_zero_le whole
  have room : (significand : ℚ) * 2 ^ (count : ℤ) < 2 ^ 96 ↔
      significand * 2 ^ count < mantissaLimit := by
    rw [zpow_natCast, Scaled.mantissaLimit_eq]
    exact_mod_cast Iff.rfl
  have small : significand < mantissaLimit :=
    Nat.lt_of_lt_of_le canonical.1 (by decide)
  have halvings : (-(count : ℤ)).toNat = 0 := by omega
  have start := Scaled.double?_of_exponent small count
  unfold ofBinary64?
  simp only [if_neg some, halvings, Scaled.halve, Int.toNat_natCast, start, room]
  by_cases fits : significand * 2 ^ count < mantissaLimit
  · obtain ⟨decimal, made, sign, pos_iff⟩ := Scaled.exists_toDecimal? negative
      (x := { mantissa := significand * 2 ^ count, exponent := 0 }) (Int.le_refl 0) fits
    rw [if_pos fits]
    exact Or.inl ⟨fits, decimal, made, sign,
      pos_iff.2 (Nat.mul_pos (Nat.pos_of_ne_zero some) (by positivity))⟩
  · rw [if_neg fits]
    exact Or.inr ⟨fits, rfl⟩

/-- A double with places behind the point has a decimal, which is zero below the threshold. -/
theorem exists_ofBinary64?_of_neg (small : exponent < 0) :
    ∃ decimal, ofBinary64? (.finite negative significand exponent canonical) = .some decimal ∧
      decimal.negative = negative ∧
      (0 < decimal.mantissa ↔ Scaled.vanishing < (significand : ℚ) * 2 ^ exponent) := by
  obtain ⟨count, isCount⟩ := Int.eq_ofNat_of_zero_le (by omega : 0 ≤ -exponent)
  obtain rfl : exponent = -(count : ℤ) := by omega
  have power : (0 : ℚ) < 2 ^ count := by positivity
  have above : Scaled.vanishing < (significand : ℚ) * 2 ^ (-(count : ℤ)) ↔
      Scaled.vanishing * 2 ^ count < significand := by
    rw [zpow_neg, zpow_natCast, lt_mul_inv_iff₀ power]
  obtain ⟨bits, least, -, full⟩ := canonical
  have few : 5 * count ≤ mantissaLimit := by
    have : 5 * 1074 ≤ mantissaLimit := by decide
    omega
  obtain ⟨gain, halved⟩ := Scaled.exists_halved
    (x := { mantissa := significand, exponent := -(count : ℤ) }) (Nat.pos_of_ne_zero some)
    (Nat.lt_of_lt_of_le bits (by decide)) few
  have low :
      (Scaled.halve count { mantissa := significand, exponent := -(count : ℤ) }).exponent ≤ 0 := by
    have := halved.gain_le
    rw [halved.exponent]
    dsimp only
    omega
  obtain ⟨decimal, made, sign, pos_iff⟩ := Scaled.exists_toDecimal? negative low halved.fits
  refine ⟨decimal, ?_, sign, ?_⟩
  · have halvings : (- -(count : ℤ)).toNat = count := by omega
    have doublings : (-(count : ℤ)).toNat = 0 := by omega
    unfold ofBinary64?
    simp only [if_neg some, halvings, doublings, Scaled.double?, Option.bind_eq_bind,
      Option.bind_some]
    exact made
  · rw [pos_iff, above]
    exact halved.coarsen_pos_iff bits (full.imp_right fun same => by omega)

/-- A double that is not zero has a decimal exactly below `2 ^ 96`, and then one with its sign, which is
zero below the threshold. -/
theorem ofBinary64?_cases :
    ((significand : ℚ) * 2 ^ exponent < 2 ^ 96 ∧
      ∃ decimal, ofBinary64? (.finite negative significand exponent canonical) = .some decimal ∧
        decimal.negative = negative ∧
        (0 < decimal.mantissa ↔ Scaled.vanishing < (significand : ℚ) * 2 ^ exponent)) ∨
      (¬(significand : ℚ) * 2 ^ exponent < 2 ^ 96 ∧
        ofBinary64? (.finite negative significand exponent canonical) = none) := by
  rcases Int.lt_or_le exponent 0 with below | whole
  · have bits : (significand : ℚ) < 2 ^ 53 := by exact_mod_cast canonical.1
    have shrinks : (2 : ℚ) ^ exponent ≤ 1 := zpow_le_one_of_nonpos₀ (by norm_num) below.le
    have fits : (significand : ℚ) * 2 ^ exponent < 2 ^ 96 :=
      calc (significand : ℚ) * 2 ^ exponent
        _ ≤ significand := mul_le_of_le_one_right (Nat.cast_nonneg _) shrinks
        _ < 2 ^ 53 := bits
        _ < 2 ^ 96 := by norm_num
    exact Or.inl ⟨fits, exists_ofBinary64?_of_neg negative canonical some below⟩
  · have one : (1 : ℚ) ≤ significand := by exact_mod_cast Nat.pos_of_ne_zero some
    have grows : (1 : ℚ) ≤ 2 ^ exponent := one_le_zpow₀ (by norm_num) whole
    have above : Scaled.vanishing < (significand : ℚ) * 2 ^ exponent :=
      lt_of_lt_of_le (by norm_num [Scaled.vanishing]) (one_le_mul_of_one_le_of_one_le one grows)
    rcases ofBinary64?_of_nonneg negative canonical some whole with
      ⟨fits, decimal, made, sign, pos⟩ | full
    · exact Or.inl ⟨fits, decimal, made, sign, iff_of_true pos above⟩
    · exact Or.inr full

end Doubles

/-- A double stands for a decimal above zero exactly if it is above the threshold and below
`2 ^ 96`. -/
theorem exists_positive_ofBinary64?_iff (raw : Binary64) :
    (∃ decimal, ofBinary64? raw = some decimal ∧ decimal.negative = false ∧ 0 < decimal.mantissa) ↔
      Scaled.vanishing < raw.toRat ∧ raw.toRat < 2 ^ 96 := by
  have none_below {value : ℚ} (le : value ≤ 0) : ¬(Scaled.vanishing < value ∧ value < 2 ^ 96) :=
    fun range => by
      have : 0 < Scaled.vanishing := by norm_num [Scaled.vanishing]
      linarith [range.1]
  cases raw with
  | nan => exact iff_of_false (fun ⟨decimal, made, _⟩ => by cases made) (none_below le_rfl)
  | infinite negative =>
    exact iff_of_false (fun ⟨decimal, made, _⟩ => by cases made) (none_below le_rfl)
  | finite negative significand exponent canonical =>
    by_cases zero : significand = 0
    · have none : ofBinary64? (.finite negative significand exponent canonical) =
          ofParts? negative 0 0 := if_pos zero
      refine iff_of_false (fun ⟨decimal, made, _, pos⟩ => ?_) (none_below ?_)
      · obtain ⟨-, parts, -⟩ := ofParts?_eq_some (none.symm.trans made)
        omega
      · unfold Binary64.toRat
        simp [zero]
    · have cases := ofBinary64?_cases negative canonical zero
      cases negative with
      | true =>
        refine iff_of_false (fun ⟨other, made', positive, _⟩ => ?_) (none_below ?_)
        · rcases cases with ⟨-, decimal, made, sign, -⟩ | ⟨-, made⟩
          · cases made.symm.trans made'
            cases sign.symm.trans positive
          · cases made.symm.trans made'
        · have magnitude : (0 : ℚ) ≤ significand * 2 ^ exponent :=
            mul_nonneg (Nat.cast_nonneg _) (zpow_nonneg (by norm_num) _)
          unfold Binary64.toRat
          simpa using magnitude
      | false =>
        have value : Binary64.toRat (.finite false significand exponent canonical) =
            significand * 2 ^ exponent := by
          unfold Binary64.toRat
          simp
        rw [value]
        rcases cases with ⟨fits, decimal, made, sign, pos_iff⟩ | ⟨full, made⟩
        · rw [made]
          constructor
          · rintro ⟨other, same, -, pos⟩
            cases same
            exact ⟨pos_iff.1 pos, fits⟩
          · exact fun range => ⟨decimal, rfl, sign, pos_iff.2 range.1⟩
        · rw [made]
          exact iff_of_false (fun ⟨other, same, _⟩ => by cases same) fun range => full range.2

end Decimal
end ExpenseLedger
