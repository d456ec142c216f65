import ExpenseLedger.Numeric.IntegerText

/-!
# Integers written and read back

The reader gives back the integer that was written, and of a text that the writer made it never
reads another one.
-/

namespace ExpenseLedger

section Digits

variable {n limit value : Nat} {text : List Char} {overflow : IntegerFault}

theorem naturalDigits_ne_nil (n : Nat) : naturalDigits n ≠ [] :=
  Nat.toDigits_ne_nil

theorem isDigit_of_mem_naturalDigits {c : Char} (h : c ∈ naturalDigits n) : c.isDigit = true :=
  Nat.isDigit_of_mem_toDigits (by decide) (by decide) h

@[simp] theorem ofDigitChars_naturalDigits (n : Nat) :
    Nat.ofDigitChars 10 (naturalDigits n) 0 = n :=
  Nat.ofDigitChars_ten_toDigits

/-- Only zero begins with a zero. -/
theorem eq_nil_of_naturalDigits {rest : List Char} (h : naturalDigits n = '0' :: rest) :
    rest = [] := by
  induction n using Nat.strongRecOn generalizing rest with
  | ind n ih =>
    unfold naturalDigits at h
    by_cases small : n < 10
    · rw [Nat.toDigits_of_lt_base small] at h
      exact (List.cons.inj h).2.symm
    · have large : 10 ≤ n := Nat.not_lt.1 small
      rw [Nat.toDigits_of_base_le (by decide) large] at h
      cases front : Nat.toDigits 10 (n / 10) with
      | nil => exact absurd front Nat.toDigits_ne_nil
      | cons c digits =>
        rw [front, List.cons_append] at h
        obtain ⟨rfl, -⟩ := List.cons.inj h
        have none : digits = [] := ih (n / 10) (by omega) front
        have zero : n / 10 = 0 := by
          rw [← ofDigitChars_naturalDigits (n / 10), naturalDigits, front, none]
          rfl
        omega

theorem le_ofDigitChars (text : List Char) (value : Nat) :
    value ≤ Nat.ofDigitChars 10 text value := by
  rw [Nat.ofDigitChars_eq_ofDigitChars_zero]
  have power : 1 ≤ 10 ^ text.length := Nat.one_le_pow _ _ (by decide)
  have := Nat.mul_le_mul_right value power
  omega

theorem readMagnitude_of_le (digits : ∀ c ∈ text, c.isDigit = true)
    (bound : Nat.ofDigitChars 10 text value ≤ limit) :
    readMagnitude limit overflow value text = .ok (Nat.ofDigitChars 10 text value) := by
  induction text generalizing value with
  | nil => rfl
  | cons c rest ih =>
    rw [Nat.ofDigitChars_cons] at bound ⊢
    have next := le_ofDigitChars rest (10 * value + (c.toNat - '0'.toNat))
    have fits : 10 * value + digitValue c ≤ limit := Nat.le_trans next bound
    unfold readMagnitude
    rw [if_pos (digits c List.mem_cons_self)]
    simp only [fits, if_true]
    exact ih (fun d member => digits d (List.mem_cons_of_mem _ member)) bound

theorem eq_of_readMagnitude (h : readMagnitude limit overflow value text = .ok n) :
    n = Nat.ofDigitChars 10 text value := by
  induction text generalizing value with
  | nil =>
    cases h
    rfl
  | cons c rest ih =>
    unfold readMagnitude at h
    split at h
    · simp only at h
      split at h
      · rw [Nat.ofDigitChars_cons]
        exact ih h
      · cases h
    · cases h

theorem le_of_readMagnitude (low : value ≤ limit)
    (h : readMagnitude limit overflow value text = .ok n) : n ≤ limit := by
  induction text generalizing value with
  | nil =>
    cases h
    exact low
  | cons c rest ih =>
    unfold readMagnitude at h
    split at h
    · dsimp only at h
      split at h
      · next fits => exact ih fits h
      · cases h
    · cases h

/-- A text of digits is read without a sign. -/
theorem readInt64_of_digits (nonempty : text ≠ []) (digits : ∀ c ∈ text, c.isDigit = true) :
    readInt64 text = (readMagnitude maxInt64.natAbs .tooLarge 0 text).map Int.ofNat := by
  unfold readInt64
  split
  · exact absurd rfl nonempty
  · exact absurd (digits '-' List.mem_cons_self) (by decide)
  · exact absurd (digits '+' List.mem_cons_self) (by decide)
  · exact absurd (digits '-' List.mem_cons_self) (by decide)
  · exact absurd (digits '+' List.mem_cons_self) (by decide)
  · rfl

theorem readInt64_minus (nonempty : text ≠ []) :
    readInt64 ('-' :: text) =
      (readMagnitude minInt64.natAbs .tooSmall 0 text).map fun n => -(n : Int) := by
  cases text with
  | nil => exact absurd rfl nonempty
  | cons c rest => rfl

end Digits

theorem readInt64_integerDigits {n : Int} (fits : FitsInt64 n) :
    readInt64 (integerDigits n) = .ok n := by
  have digits (c : Char) (h : c ∈ naturalDigits n.natAbs) : c.isDigit = true :=
    isDigit_of_mem_naturalDigits h
  obtain ⟨low, high⟩ := fits
  unfold minInt64 at low
  unfold maxInt64 at high
  unfold integerDigits
  split
  · next negative =>
    have bound : Nat.ofDigitChars 10 (naturalDigits n.natAbs) 0 ≤ minInt64.natAbs := by
      rw [ofDigitChars_naturalDigits]
      unfold minInt64
      omega
    rw [readInt64_minus (naturalDigits_ne_nil _), readMagnitude_of_le digits bound,
      ofDigitChars_naturalDigits]
    show Except.ok (-(n.natAbs : Int)) = .ok n
    congr 1
    omega
  · next natural =>
    have bound : Nat.ofDigitChars 10 (naturalDigits n.natAbs) 0 ≤ maxInt64.natAbs := by
      rw [ofDigitChars_naturalDigits]
      unfold maxInt64
      omega
    rw [readInt64_of_digits (naturalDigits_ne_nil _) digits, readMagnitude_of_le digits bound,
      ofDigitChars_naturalDigits]
    show Except.ok (n.natAbs : Int) = .ok n
    congr 1
    omega

theorem isDigit_or_minus_of_mem_integerDigits {n : Int} {c : Char} (h : c ∈ integerDigits n) :
    c.isDigit = true ∨ c = '-' := by
  unfold integerDigits at h
  split at h
  · rcases List.mem_cons.1 h with minus | digit
    · exact Or.inr minus
    · exact Or.inl (isDigit_of_mem_naturalDigits digit)
  · exact Or.inl (isDigit_of_mem_naturalDigits h)

/-- No two integers are written alike. -/
theorem integerDigits_injective {n m : Int} (h : integerDigits n = integerDigits m) : n = m := by
  have value (a b : Nat) (same : naturalDigits a = naturalDigits b) : a = b := by
    rw [← ofDigitChars_naturalDigits a, same, ofDigitChars_naturalDigits]
  have noMinus (a : Nat) : '-' ∉ naturalDigits a := by
    intro member
    have digit := isDigit_of_mem_naturalDigits member
    cases digit
  unfold integerDigits at h
  split at h <;> split at h
  · have := value _ _ (List.cons.inj h).2
    omega
  · exact absurd (h ▸ List.mem_cons_self) (noMinus m.natAbs)
  · exact absurd (h ▸ List.mem_cons_self) (noMinus n.natAbs)
  · have := value _ _ h
    omega

/-- Whatever is read fits. -/
theorem fits_of_readInt64 {text : List Char} {n : Int} (h : readInt64 text = .ok n) : FitsInt64 n := by
  have natural {digits : List Char}
      (h : (readMagnitude maxInt64.natAbs .tooLarge 0 digits).map Int.ofNat = .ok n) : FitsInt64 n := by
    cases read : readMagnitude maxInt64.natAbs .tooLarge 0 digits with
    | error fault =>
      rw [read] at h
      cases h
    | ok magnitude =>
      have high := le_of_readMagnitude (Nat.zero_le _) read
      rw [read] at h
      cases h
      unfold maxInt64 at high
      show FitsInt64 (magnitude : Int)
      unfold FitsInt64 minInt64 maxInt64
      omega
  unfold readInt64 at h
  split at h
  · cases h
  · cases h
  · cases h
  · next digits _ =>
    cases read : readMagnitude minInt64.natAbs .tooSmall 0 digits with
    | error fault =>
      rw [read] at h
      cases h
    | ok magnitude =>
      have low := le_of_readMagnitude (Nat.zero_le _) read
      rw [read] at h
      cases h
      unfold minInt64 at low
      show FitsInt64 (-(magnitude : Int))
      unfold FitsInt64 minInt64 maxInt64
      omega
  · exact natural h
  · exact natural h

/-- Of a text that was written, the integer that was written is read, if any is. -/
theorem eq_of_readInt64_integerDigits {n m : Int} (h : readInt64 (integerDigits n) = .ok m) :
    m = n := by
  unfold integerDigits at h
  split at h
  · next negative =>
    rw [readInt64_minus (naturalDigits_ne_nil _)] at h
    cases read : readMagnitude minInt64.natAbs .tooSmall 0 (naturalDigits n.natAbs) with
    | error fault =>
      rw [read] at h
      cases h
    | ok magnitude =>
      rw [read] at h
      cases h
      rw [eq_of_readMagnitude read, ofDigitChars_naturalDigits]
      show -(n.natAbs : Int) = n
      omega
  · next natural =>
    rw [readInt64_of_digits (naturalDigits_ne_nil _) fun c h => isDigit_of_mem_naturalDigits h] at h
    cases read : readMagnitude maxInt64.natAbs .tooLarge 0 (naturalDigits n.natAbs) with
    | error fault =>
      rw [read] at h
      cases h
    | ok magnitude =>
      rw [read] at h
      cases h
      rw [eq_of_readMagnitude read, ofDigitChars_naturalDigits]
      show (n.natAbs : Int) = n
      omega

end ExpenseLedger
