import ExpenseLedger.Money.Amount
import ExpenseLedger.Proofs.Numeric.Monotone
import ExpenseLedger.Proofs.Numeric.Numeral
import Mathlib.Tactic.Ring

/-!
# The hundredths of a numeral

An amount is what is left of a numeral when it is read as a decimal, multiplied by a hundred and cut.
The product is exact (`Decimal.mul?_hundred`): a mantissa that has no room for two more digits gives up
places instead. Reading is not, because the first place without room rounds the decimal. The whole
hundredths notice this only where the carry runs through nines up to the second place
(`Decimal.Numeral.RoundsUp`), and then they are one too many: `Decimal.Numeral.read_near`.
-/

namespace ExpenseLedger

/-- A whole number with a sign. -/
def signedBy (negative : Bool) (whole : Nat) : Int :=
  if negative then -(whole : Int) else whole

theorem fitsInt64_signedBy {negative : Bool} {whole : Nat} (fits : FitsInt64 (signedBy negative whole)) :
    whole ≤ 2 ^ 63 := by
  unfold FitsInt64 signedBy minInt64 maxInt64 at fits
  split at fits <;> omega

namespace Decimal

/-- The whole hundredths of a decimal, without its sign. -/
def hundredths (decimal : Decimal) : Nat :=
  100 * decimal.mantissa / tenTo decimal.scale

/-! ## The product with a hundred -/

section Product

variable {decimal product : Decimal} {negative : Bool} {mantissa top : Nat}

/-- Two places are enough to give up for two more digits. -/
theorem le_scale_add_two (rounds : Rounds negative (mantissa * 100) (tenTo top) top product)
    (small : mantissa < mantissaLimit) : top ≤ product.scale + 2 := by
  refine Nat.not_lt.1 fun coarse => ?_
  have full := rounds.finest (by omega)
  have less : mantissa * 100 * tenTo (product.scale + 1) ≤ mantissa * tenTo top := by
    have grown : 100 * tenTo (product.scale + 1) = tenTo (product.scale + 3) := by
      rw [tenTo_succ (product.scale + 2), tenTo_succ (product.scale + 1)]
      omega
    rw [Nat.mul_assoc, grown]
    exact Nat.mul_le_mul_left _ (Nat.pow_le_pow_right (by decide) coarse)
  have rounded : roundHalfEven (mantissa * 100 * tenTo (product.scale + 1)) (tenTo top) ≤ mantissa := by
    refine roundHalfEven_le (tenTo_pos top) ?_
    rw [div_le_iff₀ (by exact_mod_cast tenTo_pos top)]
    exact_mod_cast less
  omega

/-- The product is exact: what is given up are zeros. -/
theorem wholePart_of_rounds (rounds : Rounds negative (mantissa * 100) (tenTo top) top product)
    (small : mantissa < mantissaLimit) : product.wholePart = 100 * mantissa / tenTo top := by
  obtain ⟨given, split⟩ := Nat.exists_eq_add_of_le rounds.scale_le
  have few : given ≤ 2 := by
    have := le_scale_add_two rounds small
    omega
  have hundred : 10 ^ (2 - given) * 10 ^ given = 100 := by
    rw [← Nat.pow_add, Nat.sub_add_cancel few]
  have top_eq : tenTo top = tenTo product.scale * 10 ^ given := by
    rw [split]
    exact Nat.pow_add 10 _ _
  have mantissa_eq : product.mantissa = mantissa * 10 ^ (2 - given) := by
    have exact_num : mantissa * 100 * tenTo product.scale = mantissa * 10 ^ (2 - given) * tenTo top := by
      rw [top_eq, ← hundred]
      ring
    rw [rounds.mantissa, exact_num]
    exact roundHalfEven_mul_right _ (tenTo_pos top)
  unfold wholePart
  calc product.mantissa / tenTo product.scale
    _ = product.mantissa * 10 ^ given / (tenTo product.scale * 10 ^ given) :=
      (Nat.mul_div_mul_right _ _ (Nat.pow_pos (by decide))).symm
    _ = 100 * mantissa / tenTo top := by
      rw [mantissa_eq, Nat.mul_assoc, hundred, top_eq, Nat.mul_comm mantissa]

theorem mul?_hundred_eq (decimal : Decimal) :
    decimal.mul? Amount.hundred =
      ofRatio? decimal.negative (decimal.mantissa * 100) (tenTo decimal.scale) decimal.scale := by
  have fine : min maxScale decimal.scale = decimal.scale := Nat.min_eq_right decimal.scale_le
  unfold mul?
  show ofRatio? (decimal.negative != false) (decimal.mantissa * 100) (tenTo (decimal.scale + 0))
    (min maxScale (decimal.scale + 0)) = _
  rw [Bool.bne_false, Nat.add_zero, fine]

/-- A decimal times a hundred has the hundredths before the point. -/
theorem trunc_of_mul?_hundred (h : decimal.mul? Amount.hundred = some product) :
    product.trunc = signedBy decimal.negative decimal.hundredths := by
  rw [mul?_hundred_eq] at h
  have rounds := rounds_of_ofRatio? decimal.scale_le h
  rw [trunc_eq, rounds.negative, wholePart_of_rounds rounds decimal.mantissa_lt]
  rfl

/-- Where there is no product, the hundredths are out of range by far. -/
theorem lt_hundredths_of_mul?_hundred (h : decimal.mul? Amount.hundred = none) :
    2 ^ 63 < decimal.hundredths := by
  rw [mul?_hundred_eq] at h
  have full : mantissaLimit ≤ roundHalfEven (decimal.mantissa * 100) (tenTo decimal.scale) := by
    refine Nat.not_lt.1 fun fits => ?_
    obtain ⟨product, some⟩ := exists_ofRatio? decimal.negative decimal.scale fits
    rw [h] at some
    cases some
  unfold hundredths
  rw [Nat.mul_comm]
  unfold mantissaLimit at full
  rcases roundHalfEven_eq_or (decimal.mantissa * 100) (tenTo decimal.scale) with same | up <;> omega

/-- A decimal becomes an amount if its hundredths fit. -/
theorem ofDecimal?_eq (decimal : Decimal) :
    Amount.ofDecimal? decimal =
      if FitsInt64 (signedBy decimal.negative decimal.hundredths) then
        some ⟨signedBy decimal.negative decimal.hundredths⟩
      else none := by
  unfold Amount.ofDecimal?
  cases product : decimal.mul? Amount.hundred with
  | none =>
    have far := lt_hundredths_of_mul?_hundred product
    rw [if_neg fun fits => Nat.not_le.2 far (fitsInt64_signedBy fits)]
    rfl
  | some product' =>
    rw [Option.bind_eq_bind, Option.bind_some, trunc_of_mul?_hundred product]

end Product

/-! ## Rounding at the last place -/

section Last

variable {negative : Bool} {mantissa scale digit : Nat} {decimal : Decimal}

/-- A mantissa of 96 ones has no room to be rounded up, and gives up its last digit instead. -/
theorem roundLast_full (high : 5 ≤ digit) (full : mantissa + 1 = mantissaLimit) (some : 0 < scale)
    (small : scale ≤ 28) :
    roundLast negative mantissa scale digit =
      .ok ⟨negative, 7922816251426433759354395034, scale - 1, by decide,
        Nat.le_trans (Nat.sub_le _ _) small⟩ := by
  have overflow : ofParts? negative mantissaLimit scale = none :=
    dif_neg fun parts => Nat.lt_irrefl _ parts.1
  have last : (mantissaLimit + 4) / 10 = 7922816251426433759354395034 := by decide
  unfold roundLast
  dsimp only
  rw [if_pos high, full, overflow]
  dsimp only
  rw [if_neg (Nat.ne_of_gt some), last,
    ofParts?_of_fits negative (by decide) (Nat.le_trans (Nat.sub_le _ _) small)]

/-- Without a place there is no digit to give up. -/
theorem roundLast_full_zero (high : 5 ≤ digit) (full : mantissa + 1 = mantissaLimit) :
    roundLast negative mantissa 0 digit = .error .roundedPastLimit := by
  have overflow : ofParts? negative mantissaLimit 0 = none :=
    dif_neg fun parts => Nat.lt_irrefl _ parts.1
  unfold roundLast
  dsimp only
  rw [if_pos high, full, overflow]
  rfl

/-- Rounding does not take a decimal below a whole number. -/
theorem le_mantissa_of_roundLast {whole : Nat} (fits : mantissa < mantissaLimit) (small : scale ≤ 28)
    (above : whole * tenTo scale ≤ mantissa)
    (h : roundLast negative mantissa scale digit = .ok decimal) :
    whole * tenTo decimal.scale ≤ decimal.mantissa := by
  rcases Nat.lt_or_ge digit 5 with low | high
  · rw [roundLast_of_lt low fits small] at h
    cases h
    exact above
  · rcases Nat.lt_or_eq_of_le (Nat.succ_le_of_lt fits) with room | full
    · rw [roundLast_of_le high room small] at h
      cases h
      exact Nat.le_succ_of_le above
    · cases scale with
      | zero =>
        rw [roundLast_full_zero high full] at h
        cases h
      | succ scale =>
        rw [roundLast_full high full (Nat.succ_pos scale) small] at h
        cases h
        rw [tenTo_succ, ← Nat.mul_assoc] at above
        have full' : mantissa + 1 = 79228162514264337593543950336 := full
        show whole * tenTo scale ≤ 7922816251426433759354395034
        omega

end Last

/-! ## Numerals -/

/-- A hundred times a number loses two places. -/
theorem hundred_mul_div (mantissa : Nat) {scale : Nat} (h : 2 ≤ scale) :
    100 * mantissa / tenTo scale = mantissa / 10 ^ (scale - 2) := by
  have split : tenTo scale = 100 * 10 ^ (scale - 2) := by
    show 10 ^ scale = 10 ^ 2 * 10 ^ (scale - 2)
    rw [← Nat.pow_add, Nat.add_sub_cancel' h]
  rw [split, Nat.mul_div_mul_left _ _ (by decide)]

namespace Numeral

variable {n : Numeral} {decimal : Decimal}

/-- The whole hundredths of the number that is written, without its sign. -/
def hundredths (n : Numeral) : Nat :=
  100 * numberOf (n.whole ++ n.places) / 10 ^ n.places.length

/-- Rounding carries into the hundredths: the first place without room is five or more, and between it
and the second place there are only nines. -/
def RoundsUp (n : Numeral) : Prop :=
  5 ≤ leadingDigit (n.places.drop n.room) ∧ ∀ c ∈ (n.places.take n.room).drop 2, c = '9'

instance (n : Numeral) : Decidable n.RoundsUp :=
  inferInstanceAs (Decidable (_ ∧ _))

theorem numberOf_eq (n : Numeral) (count : Nat) :
    numberOf (n.whole ++ n.places) =
      n.mantissa count * 10 ^ (n.places.length - count) + numberOf (n.places.drop count) := by
  unfold mantissa
  rw [← List.length_drop, ← numberOf_append, List.append_assoc, List.take_append_drop]

/-- A number that may be an amount has at least eleven places before one is left over. -/
theorem eleven_le_room (near : n.mantissa 0 < 10 ^ 17) (left : n.room < n.places.length) :
    11 ≤ n.room := by
  rcases full_of_room_lt left with finest | full
  · rw [finest]
    decide
  · refine Nat.not_lt.1 fun few => ?_
    have length : (n.places.take (n.room + 1)).length = n.room + 1 := by
      rw [List.length_take]
      omega
    have whole : numberOf n.whole < 10 ^ 17 := by rwa [← mantissa_zero]
    have less := numberOf_lt (n.allDigits_places.take (n.room + 1))
    have power : (10 : Nat) ^ (n.room + 1) ≤ 10 ^ 11 := Nat.pow_le_pow_right (by decide) few
    have product := Nat.mul_le_mul (Nat.succ_le_of_lt whole) power
    unfold mantissa mantissaLimit at full
    rw [numberOf_append, length] at full
    rw [length] at less
    rw [Nat.succ_mul] at product
    omega

/-- The hundredths are in the places that there is room for. -/
theorem hundredths_eq (some : 2 ≤ n.room) :
    n.hundredths = n.mantissa n.room / 10 ^ (n.room - 2) := by
  have rest : numberOf (n.places.drop n.room) < 10 ^ (n.places.length - n.room) := by
    rw [← List.length_drop]
    exact numberOf_lt (n.allDigits_places.drop n.room)
  have split : (10 : Nat) ^ n.places.length =
      100 * (10 ^ (n.places.length - n.room) * 10 ^ (n.room - 2)) := by
    have sum : n.places.length = 2 + ((n.places.length - n.room) + (n.room - 2)) := by
      have := n.room_le.2
      omega
    conv_lhs => rw [sum, Nat.pow_add, Nat.pow_add]
  unfold hundredths
  rw [split, Nat.mul_div_mul_left _ _ (by decide), ← Nat.div_div_eq_div_mul, n.numberOf_eq n.room,
    Nat.mul_comm (n.mantissa n.room), Nat.mul_add_div (Nat.pow_pos (by decide)),
    Nat.div_eq_of_lt rest, Nat.add_zero]

/-- Only nines between the second place and the last let a carry through. -/
theorem dvd_succ_iff :
    10 ^ (n.room - 2) ∣ n.mantissa n.room + 1 ↔ ∀ c ∈ (n.places.take n.room).drop 2, c = '9' := by
  have digits : AllDigits ((n.places.take n.room).drop 2) := (n.allDigits_places.take _).drop _
  have length : ((n.places.take n.room).drop 2).length = n.room - 2 := by
    rw [List.length_drop, length_take_room]
  have split : n.mantissa n.room =
      10 ^ (n.room - 2) * numberOf (n.whole ++ (n.places.take n.room).take 2) +
        numberOf ((n.places.take n.room).drop 2) := by
    rw [← length, Nat.mul_comm, ← numberOf_append, List.append_assoc, List.take_append_drop]
    rfl
  have less := numberOf_lt digits
  rw [← numberOf_succ_eq_iff digits, split, Nat.add_assoc,
    Nat.dvd_add_right (Nat.dvd_mul_right _ _)]
  rw [length] at less ⊢
  exact ⟨fun divides => Nat.le_antisymm less (Nat.le_of_dvd (Nat.succ_pos _) divides),
    fun same => same ▸ Nat.dvd_refl _⟩

theorem hundredths_of_succ (some : 2 ≤ n.room) (high : 5 ≤ leadingDigit (n.places.drop n.room)) :
    (n.mantissa n.room + 1) / 10 ^ (n.room - 2) = n.hundredths + if n.RoundsUp then 1 else 0 := by
  have carries : n.RoundsUp ↔ 10 ^ (n.room - 2) ∣ n.mantissa n.room + 1 := by
    rw [dvd_succ_iff]
    exact and_iff_right high
  simp only [Nat.succ_div, hundredths_eq some, carries]

/-- The number after the largest mantissa is no multiple of ten, so nothing is carried far when it gives
up its last digit. -/
theorem hundredths_of_full (some : 11 ≤ n.room) (full : n.mantissa n.room + 1 = mantissaLimit) :
    7922816251426433759354395034 / 10 ^ (n.room - 3) = n.hundredths ∧ ¬n.RoundsUp := by
  obtain ⟨more, room⟩ := Nat.exists_eq_add_of_le some
  have ten (count : Nat) : (10 : Nat) ∣ 10 ^ (count + 1) := Dvd.intro_left (10 ^ count) rfl
  have mantissa : n.mantissa n.room = 79228162514264337593543950335 := Nat.succ.inj full
  have outer : n.room - 2 = (8 + more) + 1 := by omega
  have inner : n.room - 3 = (7 + more) + 1 := by omega
  have noCarry : ¬10 ^ (n.room - 2) ∣ n.mantissa n.room + 1 := by
    rw [mantissa, outer]
    exact fun divides => absurd ((ten _).trans divides) (by decide)
  have noCarry' : ¬10 ^ (n.room - 3) ∣ 7922816251426433759354395033 + 1 := by
    rw [inner]
    exact fun divides => absurd ((ten _).trans divides) (by decide)
  constructor
  · rw [hundredths_eq (by omega), mantissa, show n.room - 2 = n.room - 3 + 1 by omega,
      Nat.pow_succ', ← Nat.div_div_eq_div_mul]
    show (7922816251426433759354395033 + 1) / 10 ^ (n.room - 3) = _
    rw [Nat.succ_div, if_neg noCarry', Nat.add_zero]
  · exact fun up => noCarry (dvd_succ_iff.2 up.2)

/-- Of a numeral that may be an amount a decimal is read, and its hundredths are those of the numeral,
or one more where rounding carries that far. -/
theorem read_near (near : n.mantissa 0 < 10 ^ 17) :
    ∃ decimal, read n.toChars = .ok decimal ∧ decimal.negative = n.negative ∧
      decimal.hundredths = n.hundredths + if n.RoundsUp then 1 else 0 := by
  have start : n.mantissa 0 < mantissaLimit := Nat.lt_trans near (by decide)
  have fits := mantissa_room_lt start
  have fine : n.room ≤ 28 := n.room_le.1
  rw [n.read_eq, if_pos start]
  rcases Nat.lt_or_ge (leadingDigit (n.places.drop n.room)) 5 with low | high
  · rw [roundLast_of_lt low fits fine, if_neg fun up => Nat.not_le.2 low up.1]
    refine ⟨_, rfl, rfl, ?_⟩
    rcases Nat.lt_or_eq_of_le n.room_le.2 with left | all
    · have some := Nat.le_trans (by decide : 2 ≤ 11) (eleven_le_room near left)
      rw [Nat.add_zero, hundredths_eq some]
      exact hundred_mul_div _ some
    · have whole : n.mantissa n.room = numberOf (n.whole ++ n.places) := by
        unfold mantissa
        rw [all, List.take_length]
      unfold Decimal.hundredths hundredths
      dsimp only
      rw [whole, all, Nat.add_zero]
      rfl
  · have left : n.room < n.places.length := by
      refine Nat.not_le.1 fun all => ?_
      rw [List.drop_eq_nil_of_le all] at high
      exact absurd high (by decide)
    have some := eleven_le_room near left
    rcases Nat.lt_or_eq_of_le (Nat.succ_le_of_lt fits) with room | full
    · rw [roundLast_of_le high room fine, ← hundredths_of_succ (by omega) high]
      exact ⟨_, rfl, rfl, hundred_mul_div _ (Nat.le_trans (by decide) some)⟩
    · obtain ⟨hundredths, noCarry⟩ := hundredths_of_full some full
      have places : 2 ≤ n.room - 1 := by omega
      rw [roundLast_full high full (by omega) fine, if_neg noCarry, Nat.add_zero, ← hundredths]
      exact ⟨_, rfl, rfl, hundred_mul_div _ places⟩

/-- Of a numeral that is out of range by far nothing less is read. -/
theorem read_far {whole : Nat} (far : whole ≤ n.mantissa 0) (h : read n.toChars = .ok decimal) :
    100 * whole ≤ decimal.hundredths := by
  rw [n.read_eq] at h
  split at h
  · next start =>
    have above : whole * tenTo n.room ≤ n.mantissa n.room := by
      rw [mantissa_zero] at far
      unfold mantissa
      rw [numberOf_append, length_take_room]
      exact Nat.le_add_right_of_le (Nat.mul_le_mul_right _ far)
    have kept := le_mantissa_of_roundLast (mantissa_room_lt start) n.room_le.1 above h
    unfold Decimal.hundredths
    rw [Nat.le_div_iff_mul_le (tenTo_pos _), Nat.mul_assoc]
    exact Nat.mul_le_mul_left 100 kept
  · cases h

end Numeral

end Decimal
end ExpenseLedger
