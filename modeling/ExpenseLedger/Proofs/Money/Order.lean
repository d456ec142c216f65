import ExpenseLedger.Proofs.Money.RoundTrip
import ExpenseLedger.Proofs.Numeric.Monotone
import ExpenseLedger.Proofs.Report.Solvency

/-!
# Conversions keep the order

What a conversion gives is the whole part that is cut of the exact result, with the sign of the amount.
Decimals keep the order of fractions, so either conversion keeps the order of amounts, and a higher rate
gives more from the reference currency and less into it. What is left of a limit is not above the limit,
and is shown so.
-/

namespace ExpenseLedger
namespace Conversion

/-- What is given for an amount is cut of the amount times a factor, and has the sign of the amount. -/
def Scales (convert : Int → Except Overflow Int) (factor : ℚ) : Prop :=
  ∀ amount value, FitsInt64 amount → convert amount = .ok value →
    ∃ whole, Decimal.Cuts (|(amount : ℚ)| * factor) whole ∧ value = signed amount whole

section Cuts

variable {amount value : Int} {rate : Rate} {num den top : Nat}

theorem exists_cuts_of_settle (pos : 0 < den) (small : top ≤ 28) (fine : top = 28 ∨ den = tenTo top)
    (given : settle amount rate (Decimal.ofRatio? (decide (amount < 0)) num den top) = .ok value) :
    ∃ whole, Decimal.Cuts (num / den) whole ∧ value = signed amount whole := by
  cases found : Decimal.ofRatio? (decide (amount < 0)) num den top with
  | none =>
    rw [found] at given
    cases given
  | some decimal =>
    have rounds := Decimal.rounds_of_ofRatio? small found
    rw [found, settle_some rounds.negative] at given
    split at given
    · cases given
      exact ⟨decimal.wholePart, ⟨_, num, den, top, decimal, rounds, pos, fine, rfl, rfl⟩, rfl⟩
    · cases given

theorem fromBase_scales (rate : Rate) : Scales (fromBase · rate) rate.toRat := by
  intro amount value fits given
  rw [abs_mul_toRat]
  exact exists_cuts_of_settle (tenTo_pos _) rate.value.scale_le (.inr rfl)
    ((fromBase_eq fits rate).symm.trans given)

theorem toBase_scales (rate : Rate) : Scales (toBase · rate) rate.toRat⁻¹ := by
  intro amount value fits given
  rw [abs_mul_inv_toRat]
  exact exists_cuts_of_settle rate.positive.2 (Nat.le_refl _) (.inl rfl)
    ((toBase_eq fits rate).symm.trans given)

end Cuts

/-! ## The order of amounts -/

/-- A conversion does not turn the order of two amounts around, and turns the sign of its result with
that of the amount. -/
structure KeepsOrder (convert : Int → Except Overflow Int) : Prop where
  mono : ∀ a b x y, FitsInt64 a → FitsInt64 b → a ≤ b →
    convert a = .ok x → convert b = .ok y → x ≤ y
  neg : ∀ a x y, FitsInt64 a → FitsInt64 (-a) → convert a = .ok x → convert (-a) = .ok y → y = -x

section Scales

variable {convert convert' : Int → Except Overflow Int} {factor factor' : ℚ}

/-- Of two factors, the larger one gives no less for the same amount. -/
theorem Scales.le_of_factor_le (scales : Scales convert factor) (scales' : Scales convert' factor')
    (le : factor ≤ factor') {amount x y : Int} (fits : FitsInt64 amount) (nonneg : 0 ≤ amount)
    (given : convert amount = .ok x) (given' : convert' amount = .ok y) : x ≤ y := by
  obtain ⟨whole, cuts, rfl⟩ := scales amount x fits given
  obtain ⟨whole', cuts', rfl⟩ := scales' amount y fits given'
  have wholes := cuts.mono cuts' (mul_le_mul_of_nonneg_left le (abs_nonneg _))
  unfold signed
  rw [if_neg (not_lt.2 nonneg), if_neg (not_lt.2 nonneg)]
  exact_mod_cast wholes

theorem Scales.keepsOrder (scales : Scales convert factor) (pos : 0 < factor) :
    KeepsOrder convert where
  mono := by
    intro a b x y fits fits' le given given'
    obtain ⟨whole, cuts, rfl⟩ := scales a x fits given
    obtain ⟨whole', cuts', rfl⟩ := scales b y fits' given'
    have sizes {c d : Int} (le : |(c : ℚ)| ≤ |(d : ℚ)|) : |(c : ℚ)| * factor ≤ |(d : ℚ)| * factor :=
      mul_le_mul_of_nonneg_right le pos.le
    unfold signed
    rcases lt_or_ge b 0 with below | above
    · -- Of two negative amounts the lower one is the larger one in size.
      have wholes : whole' ≤ whole := by
        refine cuts'.mono cuts (sizes ?_)
        rw [← Int.cast_abs, ← Int.cast_abs, abs_of_neg below, abs_of_neg (le.trans_lt below)]
        exact_mod_cast Int.neg_le_neg le
      rw [if_pos (le.trans_lt below), if_pos below]
      omega
    · rcases lt_or_ge a 0 with below | above'
      · rw [if_pos below, if_neg (not_lt.2 above)]
        omega
      · have wholes : whole ≤ whole' := by
          refine cuts.mono cuts' (sizes ?_)
          rw [← Int.cast_abs, ← Int.cast_abs, abs_of_nonneg above, abs_of_nonneg above']
          exact_mod_cast le
        rw [if_neg (not_lt.2 above'), if_neg (not_lt.2 above)]
        omega
  neg := by
    intro a x y fits fits' given given'
    obtain ⟨whole, cuts, rfl⟩ := scales a x fits given
    obtain ⟨whole', cuts', rfl⟩ := scales (-a) y fits' given'
    rw [Int.cast_neg, abs_neg] at cuts'
    obtain rfl := cuts.unique cuts'
    rcases eq_or_ne a 0 with rfl | nonzero
    · rw [Int.cast_zero, abs_zero, zero_mul] at cuts
      obtain rfl := cuts.eq_zero
      rfl
    · unfold signed
      split <;> split <;> omega

end Scales

theorem fromBase_keepsOrder (rate : Rate) : KeepsOrder (fromBase · rate) :=
  (fromBase_scales rate).keepsOrder rate.toRat_pos

theorem toBase_keepsOrder (rate : Rate) : KeepsOrder (toBase · rate) :=
  (toBase_scales rate).keepsOrder (inv_pos.2 rate.toRat_pos)

/-- A higher rate shows more of what is in the reference currency. -/
theorem fromBase_le_of_rate_le {rate higher : Rate} (le : rate.toRat ≤ higher.toRat)
    {amount x y : Int} (fits : FitsInt64 amount) (nonneg : 0 ≤ amount)
    (shown : fromBase amount rate = .ok x) (shown' : fromBase amount higher = .ok y) : x ≤ y :=
  (fromBase_scales rate).le_of_factor_le (fromBase_scales higher) le fits nonneg shown shown'

/-- A higher rate records less in the reference currency. -/
theorem toBase_le_of_rate_le {rate higher : Rate} (le : rate.toRat ≤ higher.toRat)
    {amount x y : Int} (fits : FitsInt64 amount) (nonneg : 0 ≤ amount)
    (recorded : toBase amount higher = .ok x) (recorded' : toBase amount rate = .ok y) : x ≤ y :=
  (toBase_scales higher).le_of_factor_le (toBase_scales rate)
    (inv_anti₀ rate.toRat_pos le) fits nonneg recorded recorded'

theorem fromBase_nonneg {amount value : Int} {rate : Rate} (fits : FitsInt64 amount)
    (nonneg : 0 ≤ amount) (shown : fromBase amount rate = .ok value) : 0 ≤ value := by
  obtain ⟨whole, -, rfl⟩ := fromBase_scales rate amount value fits shown
  unfold signed
  rw [if_neg (not_lt.2 nonneg)]
  exact Int.natCast_nonneg whole

/-- An amount that is not negative can be shown if a larger one can. -/
theorem exists_fromBase_of_le {amount larger value : Int} {rate : Rate} (fits : FitsInt64 amount)
    (fits' : FitsInt64 larger) (nonneg : 0 ≤ amount) (le : amount ≤ larger)
    (shown : fromBase larger rate = .ok value) : ∃ value', fromBase amount rate = .ok value' := by
  have settled := (conversions_settle fits' rate).1.settled _ (congrArg Error.ofConversion shown)
  obtain ⟨whole, cuts, rfl⟩ := fromBase_scales rate larger value fits' shown
  have room : whole ≤ 2 ^ 63 - 1 := by
    have upper := settled.1.2
    unfold signed at upper
    rw [if_neg (not_lt.2 (nonneg.trans le)), maxInt64_eq] at upper
    omega
  have sizes : |(amount : ℚ)| * rate.toRat ≤ |(larger : ℚ)| * rate.toRat := by
    refine mul_le_mul_of_nonneg_right ?_ rate.toRat_pos.le
    rw [← Int.cast_abs, ← Int.cast_abs, abs_of_nonneg nonneg, abs_of_nonneg (nonneg.trans le)]
    exact_mod_cast le
  have small : |(amount : ℚ)| * rate.toRat ≤ ((2 ^ 63 : Nat) : ℚ) := by
    have below := cuts.lt_succ
    have top : (whole : ℚ) + 1 ≤ ((2 ^ 63 : Nat) : ℚ) := by exact_mod_cast (by omega)
    linarith
  rw [abs_mul_toRat] at sizes small
  have rounded := roundHalfEven_le (tenTo_pos _) small
  obtain ⟨decimal, found⟩ := Decimal.exists_ofRatio? (decide (amount < 0)) rate.value.scale
    (rounded.trans_lt (by decide))
  have rounds := Decimal.rounds_of_ofRatio? rate.value.scale_le found
  have cuts' : Decimal.Cuts (((amount.natAbs * rate.value.mantissa : Nat) : ℚ) /
      ((tenTo rate.value.scale : Nat) : ℚ)) decimal.wholePart :=
    ⟨_, _, _, _, decimal, rounds, tenTo_pos _, .inr rfl, rfl, rfl⟩
  have wholes := cuts'.mono cuts sizes
  rw [fromBase_eq fits, found, settle_some rounds.negative,
    if_pos (fits_signed (wholes.trans room))]
  exact ⟨_, rfl⟩

end Conversion

/-! ## Limits as they are shown -/

/-- Solvent books show what is left of a limit as an amount that is neither negative nor above the
limit. -/
theorem Books.Solvent.limitStatus {books : Books} (solvent : books.Solvent) {user : Int}
    {status : LimitStatus} (shown : books.limitStatus user = .ok status) :
    0 ≤ status.remaining.minor ∧ status.remaining ≤ status.defaultLimit := by
  obtain ⟨row, read, shown⟩ := Outcome.bind_eq_ok.1 shown
  obtain ⟨currency, -, shown⟩ := Outcome.bind_eq_ok.1 shown
  obtain ⟨rate, -, shown⟩ := Outcome.bind_eq_ok.1 shown
  obtain ⟨defaultLimit, default, shown⟩ := Outcome.bind_eq_ok.1 shown
  obtain ⟨remaining, current, shown⟩ := Outcome.bind_eq_ok.1 shown
  cases shown
  obtain ⟨-, found⟩ := Store.user_eq_ok.1 read
  have limited := solvent.limited found
  obtain ⟨nonneg, le⟩ := solvent.limits_le row (Rows.get?_eq_some found).1
  have default' := Error.ofConversion_eq_ok.1 default
  have current' := Error.ofConversion_eq_ok.1 current
  exact ⟨Conversion.fromBase_nonneg limited.currentLimit nonneg current',
    (Conversion.fromBase_keepsOrder rate).mono _ _ _ _ limited.currentLimit limited.defaultLimit le
      current' default'⟩

/-- Either conversion keeps the order of amounts and turns their signs along. Of two rates the higher one
shows no less of an amount that is not negative, and records no more of it. So wherever writers, report
calls and workers have come to, what is left of a limit is shown between nothing and the limit. -/
theorem conversions_keep_order {limit : Int} (limit_pos : 0 < limit) (fits : FitsInt64 limit)
    {desk : Desk} (vacant : desk.books.Vacant) (settings : ReportSettings)
    (actions : List ReportAction) :
    (∀ rate, Conversion.KeepsOrder (Conversion.fromBase · rate) ∧
      Conversion.KeepsOrder (Conversion.toBase · rate)) ∧
    (∀ rate higher : Rate, rate.toRat ≤ higher.toRat → ∀ amount x y, FitsInt64 amount → 0 ≤ amount →
      (Conversion.fromBase amount rate = .ok x → Conversion.fromBase amount higher = .ok y → x ≤ y) ∧
      (Conversion.toBase amount higher = .ok x → Conversion.toBase amount rate = .ok y → x ≤ y)) ∧
    ∀ user status,
      (ReportRun.ofActions settings limit desk actions).world.desk.books.limitStatus user =
        .ok status →
      0 ≤ status.remaining.minor ∧ status.remaining ≤ status.defaultLimit := by
  refine ⟨fun rate => ⟨Conversion.fromBase_keepsOrder rate, Conversion.toBase_keepsOrder rate⟩, ?_, ?_⟩
  · intro rate higher le amount x y inRange nonneg
    exact ⟨Conversion.fromBase_le_of_rate_le le inRange nonneg,
      Conversion.toBase_le_of_rate_le le inRange nonneg⟩
  · intro user status shown
    exact (ReportRun.solvent_ofActions settings limit_pos fits vacant actions).limitStatus shown

/-- Close to the end of the range, where a product has no room for its last digits, two amounts stay in
order and so do two rates; and after an expense of sixty, forty of a limit of a hundred are left. -/
theorem conversions_keep_order_oneReport :
    0 < (100 : Int) ∧ FitsInt64 100 ∧ newDesk.books.Vacant ∧
      Conversion.fromBase 9000000000000000001 Conversion.nearlyOne = .ok 8999999999999991001 ∧
      Conversion.fromBase 9000000000000000000 Conversion.nearlyOne = .ok 8999999999999991000 ∧
      (8999999999999991000 : Int) ≤ 8999999999999991001 ∧
      fourTenths.toRat ≤ Conversion.nearlyOne.toRat ∧
      Conversion.fromBase 9000000000000000001 fourTenths = .ok 3600000000000000000 ∧
      (3600000000000000000 : Int) ≤ 8999999999999991001 ∧
      let books := (ReportRun.ofActions sharedSettings 100 newDesk oneReport).world.desk.books
      books.limitStatus 1 = .ok ⟨"EUR", ⟨100⟩, ⟨40⟩⟩ ∧ 0 ≤ (40 : Int) ∧ (⟨40⟩ : Amount) ≤ ⟨100⟩ := by
  have fits : FitsInt64 100 := by decide
  have vacant : newDesk.books.Vacant := ⟨rfl, rfl, rfl, rfl, nofun⟩
  obtain ⟨orders, rates, shown⟩ :=
    conversions_keep_order (by decide : 0 < (100 : Int)) fits vacant sharedSettings oneReport
  have more : Conversion.fromBase 9000000000000000001 Conversion.nearlyOne = .ok 8999999999999991001 := by
    decide
  have less : Conversion.fromBase 9000000000000000000 Conversion.nearlyOne = .ok 8999999999999991000 := by
    decide
  have lower : Conversion.fromBase 9000000000000000001 fourTenths = .ok 3600000000000000000 := by
    decide
  have le : fourTenths.toRat ≤ Conversion.nearlyOne.toRat := by
    norm_num [Rate.toRat, fourTenths, Conversion.nearlyOne]
  have status : (ReportRun.ofActions sharedSettings 100 newDesk oneReport).world.desk.books.limitStatus
      1 = .ok ⟨"EUR", ⟨100⟩, ⟨40⟩⟩ := by
    decide +kernel
  exact ⟨by decide, fits, vacant, more, less,
    (orders Conversion.nearlyOne).1.mono _ _ _ _ (by decide) (by decide) (by decide) less more, le,
    lower, (rates _ _ le 9000000000000000001 _ _ (by decide) (by decide)).1 lower more, status,
    shown 1 _ status⟩

end ExpenseLedger
