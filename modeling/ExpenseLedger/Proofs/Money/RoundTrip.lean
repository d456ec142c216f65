import ExpenseLedger.Proofs.Ledger.History
import ExpenseLedger.Proofs.Money.Conversion

/-!
# There and back

An amount that is converted one way and then the other loses whatever is cut off on the way, and
gains nothing. The rounding before each cut is a tiny part of the amount, so at 64 bits the two of
them together never reach the next whole number: `IsTruncated.back`.
-/

namespace ExpenseLedger

/-! ## Two truncations in a row -/

namespace Decimal.IsTruncated

variable {start middle final : Nat} {factor : ℚ}

/-- Taken back without a second cut, a truncated result is a tiny part too much at most. -/
theorem taken_back_le (pos : 0 < factor) (there : IsTruncated (start * factor) middle) :
    (middle : ℚ) * factor⁻¹ ≤ start + start / 10 ^ 28 := by
  have undone : (start : ℚ) * factor * factor⁻¹ = start := by field_simp
  calc (middle : ℚ) * factor⁻¹
    _ ≤ (start * factor + start * factor / 10 ^ 28) * factor⁻¹ :=
      mul_le_mul_of_nonneg_right there.le_add (inv_pos.2 pos).le
    _ = start * factor * factor⁻¹ + start * factor * factor⁻¹ / 10 ^ 28 := by ring
    _ = start + start / 10 ^ 28 := by rw [undone]

/-- A number below `2 ^ 63` that is multiplied by a factor and truncated, and then divided by the
factor and truncated, has not grown, and has lost less than one and a unit of what was in between. -/
theorem back (pos : 0 < factor) (small : start < 2 ^ 63)
    (there : IsTruncated (start * factor) middle)
    (back : IsTruncated (middle * factor⁻¹) final) :
    final ≤ start ∧ (start : ℚ) - final < 1 + factor⁻¹ := by
  constructor
  · -- Going up twice by a tiny part does not reach the next whole number.
    have small' : (start : ℚ) < 2 ^ 63 := by exact_mod_cast small
    have tiny : (start : ℚ) / 10 ^ 28 ≤ 1 / 10 ^ 9 := Conversion.tiny_le (by linarith)
    have taken_back := there.taken_back_le pos
    have last := back.le_add
    have less : (final : ℚ) < start + 1 := by linarith
    exact Nat.lt_succ_iff.1 (by exact_mod_cast less)
  · have undone : (start : ℚ) * factor * factor⁻¹ = start := by field_simp
    have start_lt : (start : ℚ) < (middle + 1) * factor⁻¹ := by
      calc (start : ℚ)
        _ = start * factor * factor⁻¹ := undone.symm
        _ < (middle + 1) * factor⁻¹ := mul_lt_mul_of_pos_right there.lt_succ (inv_pos.2 pos)
    have last := back.lt_succ
    linarith

end Decimal.IsTruncated

namespace Conversion

/-! ## Two conversions in a row -/

section RoundTrip

variable {amount value : Int} {rate : Rate} {factor : ℚ} {conversion : Except Overflow Int}

/-- What an amount that is not negative has become. -/
theorem Computes.exists_whole (computes : Computes amount rate factor (.ok value))
    (nonneg : 0 ≤ amount) :
    ∃ whole : Nat, value = whole ∧ Decimal.IsTruncated (amount.toNat * factor) whole := by
  have start : |(amount : ℚ)| = amount.toNat := by
    rw [abs_of_nonneg (by exact_mod_cast nonneg)]
    exact_mod_cast (Int.toNat_of_nonneg nonneg).symm
  generalize given : (Except.ok value : Except Overflow Int) = conversion at computes
  cases computes with
  | lost far => cases given
  | @cut whole near =>
    split at given
    · cases given
      exact ⟨whole, if_neg (not_lt.2 nonneg), start ▸ near⟩
    · cases given

/-- An amount is converted if whatever it can become is in range. -/
theorem Computes.exists_ok {whole : Nat} (computes : Computes (whole : Int) rate factor conversion)
    (near : whole * factor < 2 ^ 64)
    (small : ∀ final : Nat, Decimal.IsTruncated (whole * factor) final → final < 2 ^ 63) :
    ∃ final : Nat, conversion = .ok (final : Int) ∧ Decimal.IsTruncated (whole * factor) final := by
  have start : |((whole : Int) : ℚ)| = whole := by
    rw [Int.cast_natCast, Nat.abs_cast]
  cases computes with
  | lost far =>
    rw [start] at far
    exact absurd near (not_lt.2 far)
  | @cut final truncated =>
    rw [start] at truncated
    have final_lt := small final truncated
    have same : signed (whole : Int) final = final := if_neg (Int.not_lt.2 (Int.natCast_nonneg whole))
    have fits : FitsInt64 (signed (whole : Int) final) := fits_signed (by omega)
    refine ⟨final, ?_, truncated⟩
    rw [if_pos fits, same]

/-- One conversion undoes the other up to what is cut off. -/
theorem Computes.back (fits : FitsInt64 amount) (nonneg : 0 ≤ amount) (pos : 0 < factor)
    (there : Computes amount rate factor (.ok value))
    (back : Computes value rate factor⁻¹ conversion) :
    ∃ final, conversion = .ok final ∧ 0 ≤ amount - final ∧
      ((amount - final : Int) : ℚ) < 1 + factor⁻¹ := by
  obtain ⟨middle, rfl, truncated⟩ := there.exists_whole nonneg
  have start_lt : amount.toNat < 2 ^ 63 := by
    have upper : amount ≤ 2 ^ 63 - 1 := fits.2
    omega
  have near : (middle : ℚ) * factor⁻¹ < 2 ^ 64 := by
    have start_lt' : (amount.toNat : ℚ) < 2 ^ 63 := by exact_mod_cast start_lt
    have tiny : (amount.toNat : ℚ) / 10 ^ 28 ≤ 1 / 10 ^ 9 := tiny_le (by linarith)
    linarith [truncated.taken_back_le pos]
  have kept (final : Nat) (last : Decimal.IsTruncated (middle * factor⁻¹) final) :=
    truncated.back pos start_lt last
  obtain ⟨final, given, last⟩ :=
    back.exists_ok near fun final last => (kept final last).1.trans_lt start_lt
  obtain ⟨le, lost⟩ := kept final last
  have whole : ((amount.toNat : Nat) : ℚ) = amount := by
    exact_mod_cast Int.toNat_of_nonneg nonneg
  refine ⟨final, given, by omega, ?_⟩
  push_cast
  rwa [← whole]

/-- An amount of the reference currency that is shown and taken back. -/
theorem toBase_of_fromBase (fits : FitsInt64 amount) (nonneg : 0 ≤ amount)
    (shown : fromBase amount rate = .ok value) :
    ∃ base, toBase value rate = .ok base ∧ 0 ≤ amount - base ∧
      ((amount - base : Int) : ℚ) < 1 + 1 / rate.toRat := by
  have there := fromBase_computes fits rate
  have value_fits :=
    ((there.settles rate.toRat_pos).settled value (congrArg Error.ofConversion shown)).1
  rw [shown] at there
  rw [one_div]
  exact there.back fits nonneg rate.toRat_pos (toBase_computes value_fits rate)

/-- An amount of a display currency that is recorded and shown back. -/
theorem fromBase_of_toBase (fits : FitsInt64 amount) (nonneg : 0 ≤ amount)
    (recorded : toBase amount rate = .ok value) :
    ∃ shown, fromBase value rate = .ok shown ∧ 0 ≤ amount - shown ∧
      ((amount - shown : Int) : ℚ) < 1 + rate.toRat := by
  have pos : 0 < rate.toRat⁻¹ := inv_pos.2 rate.toRat_pos
  have there := toBase_computes fits rate
  have value_fits :=
    ((there.settles pos).settled value (congrArg Error.ofConversion recorded)).1
  have back := fromBase_computes value_fits rate
  rw [recorded] at there
  rw [← inv_inv rate.toRat] at back ⊢
  exact there.back fits nonneg pos back

end RoundTrip

end Conversion

/-! ## What is shown back -/

theorem Store.toBase_eq_ok {store : Store} {amount currency base : Int}
    (h : store.toBase amount currency = .ok base) :
    ∃ rate, store.rate currency = .ok rate ∧ Conversion.toBase amount rate = .ok base := by
  obtain ⟨rate, read, h⟩ := Outcome.bind_eq_ok.1 h
  refine ⟨rate, read, ?_⟩
  cases converted : Conversion.toBase amount rate with
  | error fault =>
    rw [converted] at h
    cases h
  | ok value =>
    rw [converted] at h
    cases h
    rfl

namespace Books

variable {books after : Books} {user : Int}

/-- A limit that was set is shown, and not as more than was asked for. -/
theorem limitStatus_of_setLimit {amount : Amount} (fits : FitsInt64 amount.minor)
    (h : books.setLimit user amount = .ok after) :
    ∃ status, after.limitStatus user = .ok status ∧ status.defaultLimit ≤ amount ∧
      status.remaining ≤ amount := by
  unfold setLimit at h
  split at h
  · cases h
  next positive =>
  have nonneg : 0 ≤ amount.minor := by
    have pos : 0 < amount.minor := by simpa [Amount.isPositive] using positive
    omega
  obtain ⟨row, read, h⟩ := Outcome.bind_eq_ok.1 h
  obtain ⟨base, converted, h⟩ := Outcome.bind_eq_ok.1 h
  split at h
  · cases h
  obtain ⟨reached, found⟩ := Store.user_eq_ok.1 read
  obtain ⟨rate, rated, converted⟩ := Store.toBase_eq_ok converted
  obtain ⟨currency, known, -⟩ := Outcome.bind_eq_ok.1 rated
  obtain ⟨shown, given, le, -⟩ := Conversion.fromBase_of_toBase fits nonneg converted
  obtain ⟨store, set, rfl⟩ := withStore_eq_ok.1 h
  obtain ⟨row', found', rfl⟩ := Store.setLimit_eq_ok set
  obtain rfl := Option.some.inj (found.symm.trans found')
  obtain rfl := Store.user?_id found
  let changed : User := { row with defaultLimit := base, currentLimit := base }
  have readAgain : (books.store.putUser changed).user row.id = .ok changed :=
    Store.user_eq_ok.2 ⟨reached, Store.user?_putUser_self books.store changed⟩
  have knownAgain : (books.store.putUser changed).currency row.currency = .ok currency := known
  have ratedAgain : (books.store.putUser changed).rate row.currency = .ok rate := rated
  refine ⟨⟨currency.code, ⟨shown⟩, ⟨shown⟩⟩, ?_, Int.sub_nonneg.1 le, Int.sub_nonneg.1 le⟩
  unfold limitStatus
  simp only [Outcome.bind_eq_ok]
  have limit : Error.ofConversion (Conversion.fromBase base rate) = .ok shown :=
    congrArg Error.ofConversion given
  exact ⟨changed, readAgain, currency, knownAgain, rate, ratedAgain, shown, limit, shown, limit, rfl⟩

/-- An expense that was written is a row that can be shown, and not as more than was asked for. -/
theorem fromBase_of_writeExpense {request : ExpenseRequest} {now : Instant}
    (fits : FitsInt64 request.amount.minor) (h : books.writeExpense request now = .ok after) :
    ∃ user row shown, books.store.user? request.user = some user ∧
      after.store.expenses = books.store.expenses ++ [row] ∧ row.user = request.user ∧
      books.store.fromBase row.amount user.currency = .ok shown ∧ shown ≤ request.amount.minor := by
  have nonneg : 0 ≤ request.amount.minor := by
    obtain ⟨currency, read, -⟩ := Outcome.bind_eq_ok.1 h
    obtain ⟨u, checked, -⟩ := Outcome.bind_eq_ok.1 read
    unfold ExpenseRequest.checkAmount at checked
    split at checked
    · next positive =>
      have pos : 0 < request.amount.minor := by simpa [Amount.isPositive] using positive
      omega
    · cases checked
  obtain ⟨row, middle, writes, rfl⟩ := writeExpense_writes h
  obtain ⟨user, found, converted⟩ := writes.found
  obtain ⟨rate, rated, converted⟩ := Store.toBase_eq_ok converted
  obtain ⟨shown, given, le, -⟩ := Conversion.fromBase_of_toBase fits nonneg converted
  refine ⟨user, row, shown, found, ?_, writes.user, ?_, Int.sub_nonneg.1 le⟩
  · rw [(sameRows_invalidate { books with store := middle.withExpense row } request.user).expenses]
    exact congrArg (· ++ [row]) writes.same.expenses
  · exact Outcome.bind_eq_ok.2 ⟨rate, rated, congrArg Error.ofConversion given⟩

end Books

/-- An amount that is converted one way and then the other is never more than it was, and less by
under one and a unit of what was in between. So neither an expense nor a limit is shown back as more
than was entered. -/
theorem round_trips {amount : Int} (nonneg : 0 ≤ amount) (fits : FitsInt64 amount) (rate : Rate) :
    (∀ shown, Conversion.fromBase amount rate = .ok shown →
      ∃ base, Conversion.toBase shown rate = .ok base ∧ 0 ≤ amount - base ∧
        ((amount - base : Int) : ℚ) < 1 + 1 / rate.toRat ∧
        (1 ≤ rate.toRat → amount - base ≤ 1)) ∧
      (∀ base, Conversion.toBase amount rate = .ok base →
        ∃ shown, Conversion.fromBase base rate = .ok shown ∧ 0 ≤ amount - shown ∧
          ((amount - shown : Int) : ℚ) < 1 + rate.toRat) ∧
      (∀ (books after : Books) (user : Int), books.setLimit user ⟨amount⟩ = .ok after →
        ∃ status, after.limitStatus user = .ok status ∧ status.defaultLimit ≤ ⟨amount⟩ ∧
          status.remaining ≤ ⟨amount⟩) ∧
      (∀ (books after : Books) (request : ExpenseRequest) (now : Instant),
        request.amount = ⟨amount⟩ → books.writeExpense request now = .ok after →
        ∃ user row shown, books.store.user? request.user = some user ∧
          after.store.expenses = books.store.expenses ++ [row] ∧ row.user = request.user ∧
          books.store.fromBase row.amount user.currency = .ok shown ∧ shown ≤ amount) := by
  refine ⟨fun shown given => ?_, fun base given => Conversion.fromBase_of_toBase fits nonneg given,
    fun books after user set => Books.limitStatus_of_setLimit fits set,
    fun books after request now same written => ?_⟩
  · obtain ⟨base, back, le, lost⟩ := Conversion.toBase_of_fromBase fits nonneg given
    refine ⟨base, back, le, lost, fun large => ?_⟩
    have part : 1 / rate.toRat ≤ 1 := (div_le_one₀ rate.toRat_pos).2 large
    have less : ((amount - base : Int) : ℚ) < (2 : Int) := by
      push_cast at lost ⊢
      linarith
    exact Int.lt_add_one_iff.1 (Int.cast_lt.1 less)
  · obtain rfl : amount = request.amount.minor := by rw [same]
    exact Books.fromBase_of_writeExpense fits written

/-- A rate at which a reference unit is less than half a display unit. -/
def fourTenths : Rate where
  value := { negative := false, mantissa := 4, scale := 1 }

/-- The books of a user with a category, whose currency has two units to the reference unit. -/
def dollarBooks : Books where
  store :=
    { currencies := [⟨0, "EUR", Binary64.one⟩, ⟨1, "USD", Binary64.ofInt 2⟩]
      users := [{ id := 1, currency := 1, defaultLimit := 100, currentLimit := 100 }]
      categories := [⟨1, 1, "food"⟩]
      nextCategory := 2 }
  cache := .shared

/-- Seven comes back as five one way and as six the other, and so it does in the books. -/
theorem round_trips_seven :
    0 ≤ (7 : Int) ∧ FitsInt64 7 ∧ Conversion.fromBase 7 fourTenths = .ok 2 ∧
      (∃ base, Conversion.toBase 2 fourTenths = .ok base ∧ 0 ≤ 7 - base ∧
        ((7 - base : Int) : ℚ) < 1 + 1 / fourTenths.toRat) ∧
      Conversion.toBase 7 fourTenths = .ok 17 ∧
      (∃ shown, Conversion.fromBase 17 fourTenths = .ok shown ∧ 0 ≤ 7 - shown ∧
        ((7 - shown : Int) : ℚ) < 1 + fourTenths.toRat) ∧
      (∃ after status, dollarBooks.setLimit 1 ⟨7⟩ = .ok after ∧
        after.limitStatus 1 = .ok status ∧ status.defaultLimit ≤ ⟨7⟩) ∧
      (∃ after row shown, dollarBooks.writeExpense ⟨1, "food", ⟨7⟩, .epoch⟩ .epoch = .ok after ∧
        after.store.expenses = [row] ∧ dollarBooks.store.fromBase row.amount 1 = .ok shown ∧
        shown ≤ 7) := by
  have nonneg : 0 ≤ (7 : Int) := by decide
  have fits : FitsInt64 7 := by decide
  obtain ⟨there, back, limit, expense⟩ := round_trips nonneg fits fourTenths
  have given : Conversion.fromBase 7 fourTenths = .ok 2 := by decide
  have recorded : Conversion.toBase 7 fourTenths = .ok 17 := by decide
  refine ⟨nonneg, fits, given, ?_, recorded, back 17 recorded, ?_, ?_⟩
  · obtain ⟨base, taken, le, lost, -⟩ := there 2 given
    exact ⟨base, taken, le, lost⟩
  · cases set : dollarBooks.setLimit 1 ⟨7⟩ with
    | error e =>
      have isOk : (dollarBooks.setLimit 1 ⟨7⟩).isOk = true := by decide +kernel
      rw [set] at isOk
      cases isOk
    | ok after =>
      obtain ⟨status, read, le, -⟩ := limit dollarBooks after 1 set
      exact ⟨after, status, rfl, read, le⟩
  · cases written : dollarBooks.writeExpense ⟨1, "food", ⟨7⟩, .epoch⟩ .epoch with
    | error e =>
      have isOk : (dollarBooks.writeExpense ⟨1, "food", ⟨7⟩, .epoch⟩ .epoch).isOk = true := by
        decide +kernel
      rw [written] at isOk
      cases isOk
    | ok after =>
      obtain ⟨user, row, shown, found, rows, -, converted, le⟩ :=
        expense dollarBooks after _ _ rfl written
      have currency : user.currency = 1 := by
        cases found
        rfl
      rw [currency] at converted
      exact ⟨after, row, shown, rfl, rows, converted, le⟩

end ExpenseLedger
