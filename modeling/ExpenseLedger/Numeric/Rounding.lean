/-!
# Rounding a quotient

The one rounding rule of the numeric modules: to the nearest natural number, and from the
middle to the even neighbour.
-/

namespace ExpenseLedger

/-- The natural number nearest to `num / den`; a quotient halfway between two of them goes to
the even one. -/
def roundHalfEven (num den : Nat) : Nat :=
  let quotient := num / den
  let remainder := num % den
  if den < 2 * remainder ∨ (2 * remainder = den ∧ quotient % 2 = 1) then
    quotient + 1
  else
    quotient

/-- Rounding moves a quotient up by at most one. -/
theorem roundHalfEven_eq_or (num den : Nat) :
    roundHalfEven num den = num / den ∨ roundHalfEven num den = num / den + 1 := by
  unfold roundHalfEven
  dsimp only
  split
  · exact Or.inr rfl
  · exact Or.inl rfl

/-- A whole quotient is not moved. -/
theorem roundHalfEven_mul_right (quotient : Nat) {den : Nat} (h : 0 < den) :
    roundHalfEven (quotient * den) den = quotient := by
  simp [roundHalfEven, Nat.mul_div_cancel _ h, Nat.ne_of_lt h]

end ExpenseLedger
