import ExpenseLedger.Numeric.Decimal.Reading
import ExpenseLedger.Proofs.Numeric.Decimal
import ExpenseLedger.Proofs.Numeric.IntegerText
import Mathlib.Data.Nat.Find

/-!
# Numbers as they are written

A `Decimal.Numeral` is what the grammar of decimals allows: a minus sign or none, and digits with at
most one point among them. The reader accepts numerals and nothing else (`exists_numeral_of_read`), and
of a numeral it takes up the digits that 96 bits and 28 places have room for and rounds by the next one
(`Numeral.read_eq`).
-/

namespace ExpenseLedger

/-! ## Digits -/

/-- Nothing but digits. -/
def AllDigits (text : List Char) : Prop :=
  ∀ c ∈ text, c.isDigit = true

instance (text : List Char) : Decidable (AllDigits text) :=
  List.decidableBAll (fun c : Char => c.isDigit = true) text

/-- The number that digits write. -/
def numberOf (text : List Char) : Nat :=
  Nat.ofDigitChars 10 text 0

section Digits

variable {c : Char} {text rest : List Char}

theorem allDigits_nil : AllDigits [] :=
  List.forall_mem_nil _

theorem AllDigits.of_append_left (digits : AllDigits (text ++ rest)) : AllDigits text :=
  fun c member => digits c (List.mem_append_left _ member)

theorem AllDigits.of_append_right (digits : AllDigits (text ++ rest)) : AllDigits rest :=
  fun c member => digits c (List.mem_append_right _ member)

theorem AllDigits.append (digits : AllDigits text) (digits' : AllDigits rest) :
    AllDigits (text ++ rest) :=
  fun c member => (List.mem_append.1 member).elim (digits c) (digits' c)

theorem AllDigits.take (digits : AllDigits text) (count : Nat) : AllDigits (text.take count) :=
  fun c member => digits c (List.mem_of_mem_take member)

theorem AllDigits.drop (digits : AllDigits text) (count : Nat) : AllDigits (text.drop count) :=
  fun c member => digits c (List.mem_of_mem_drop member)

theorem allDigits_cons : AllDigits (c :: rest) ↔ c.isDigit = true ∧ AllDigits rest :=
  List.forall_mem_cons

theorem toNat_of_isDigit (digit : c.isDigit = true) : 48 ≤ c.toNat ∧ c.toNat ≤ 57 := by
  unfold Char.isDigit at digit
  simp only [ge_iff_le, Bool.and_eq_true, decide_eq_true_eq, UInt32.le_iff_toNat_le] at digit
  exact digit

theorem digitValue_le (digit : c.isDigit = true) : digitValue c ≤ 9 := by
  have := toNat_of_isDigit digit
  show c.toNat - 48 ≤ 9
  omega

theorem digitValue_eq_nine_iff (digit : c.isDigit = true) : digitValue c = 9 ↔ c = '9' := by
  have := toNat_of_isDigit digit
  constructor
  · intro nine
    have nine' : c.toNat - 48 = 9 := nine
    exact Char.toNat_inj.1 (show c.toNat = 57 by omega)
  · rintro rfl
    rfl

theorem numberOf_append (text rest : List Char) :
    numberOf (text ++ rest) = numberOf text * 10 ^ rest.length + numberOf rest := by
  unfold numberOf
  rw [Nat.ofDigitChars_append, Nat.ofDigitChars_eq_ofDigitChars_zero, Nat.mul_comm]

theorem numberOf_cons (c : Char) (rest : List Char) :
    numberOf (c :: rest) = digitValue c * 10 ^ rest.length + numberOf rest := by
  unfold numberOf
  rw [Nat.ofDigitChars_cons, Nat.ofDigitChars_eq_ofDigitChars_zero, Nat.mul_zero, Nat.zero_add,
    Nat.mul_comm]
  rfl

theorem numberOf_lt (digits : AllDigits text) : numberOf text < 10 ^ text.length := by
  induction text with
  | nil => decide
  | cons c rest ih =>
    obtain ⟨digit, digits⟩ := allDigits_cons.1 digits
    have low := ih digits
    have high := Nat.mul_le_mul_right (10 ^ rest.length) (digitValue_le digit)
    rw [numberOf_cons, List.length_cons, Nat.pow_succ]
    omega

/-- The last number before a power of ten is written with nines. -/
theorem numberOf_succ_eq_iff (digits : AllDigits text) :
    numberOf text + 1 = 10 ^ text.length ↔ ∀ c ∈ text, c = '9' := by
  induction text with
  | nil => simp [numberOf]
  | cons c rest ih =>
    obtain ⟨digit, digits⟩ := allDigits_cons.1 digits
    have low := numberOf_lt digits
    rw [numberOf_cons, List.length_cons, Nat.pow_succ, List.forall_mem_cons, ← ih digits,
      ← digitValue_eq_nine_iff digit]
    rcases Nat.lt_or_eq_of_le (digitValue_le digit) with small | nine
    · have high := Nat.mul_le_mul_right (10 ^ rest.length) (Nat.le_of_lt_succ small)
      omega
    · rw [nine]
      omega

end Digits

/-! ## A fixed number of digits -/

section Padded

variable {width n : Nat} {text : List Char}

theorem length_paddedDigits (width n : Nat) : (paddedDigits width n).length = width := by
  induction width generalizing n with
  | zero => rfl
  | succ width ih =>
    unfold paddedDigits
    rw [List.length_append, ih]
    rfl

theorem allDigits_paddedDigits (width n : Nat) : AllDigits (paddedDigits width n) := by
  induction width generalizing n with
  | zero => exact allDigits_nil
  | succ width ih =>
    unfold paddedDigits
    refine (ih (n / 10)).append (allDigits_cons.2 ⟨?_, allDigits_nil⟩)
    rw [Nat.isDigit_digitChar]
    exact decide_eq_true (Nat.mod_lt _ (by decide))

theorem numberOf_paddedDigits (width n : Nat) : numberOf (paddedDigits width n) = n % 10 ^ width := by
  induction width generalizing n with
  | zero => exact (Nat.mod_one n).symm
  | succ width ih =>
    have last : numberOf [Nat.digitChar (n % 10)] = n % 10 := by
      unfold numberOf
      rw [Nat.ofDigitChars_cons_digitChar_of_lt_ten (Nat.mod_lt _ (by decide))]
      simp
    unfold paddedDigits
    rw [numberOf_append, ih, last, Nat.pow_succ', Nat.mod_mul]
    simp only [List.length_singleton, Nat.pow_one]
    omega

theorem digitChar_digitValue {c : Char} (digit : c.isDigit = true) :
    Nat.digitChar (digitValue c) = c := by
  have bounds := toNat_of_isDigit digit
  have value : digitValue c = c.toNat - 48 := rfl
  apply Char.toNat_inj.1
  rw [Nat.toNat_digitChar_of_lt_ten (by omega)]
  omega

/-- Digits are determined by their number and how many they are. -/
theorem paddedDigits_numberOf (digits : AllDigits text) :
    paddedDigits text.length (numberOf text) = text := by
  induction text using List.reverseRecOn with
  | nil => rfl
  | append_singleton init c ih =>
    have digit : c.isDigit = true := (allDigits_cons.1 digits.of_append_right).1
    have small := digitValue_le digit
    have value : numberOf (init ++ [c]) = numberOf init * 10 + digitValue c := by
      rw [numberOf_append, numberOf_cons]
      simp [numberOf]
    have front : (numberOf init * 10 + digitValue c) / 10 = numberOf init := by omega
    have last : (numberOf init * 10 + digitValue c) % 10 = digitValue c := by omega
    rw [value, List.length_append, List.length_singleton, paddedDigits, front, last,
      ih digits.of_append_left, digitChar_digitValue digit]

theorem eq_paddedDigits (digits : AllDigits text) (length : text.length = width)
    (number : numberOf text = n) : text = paddedDigits width n := by
  rw [← length, ← number, paddedDigits_numberOf digits]

theorem allDigits_atLeastDigits (width n : Nat) : AllDigits (atLeastDigits width n) := by
  apply AllDigits.append
  · intro c member
    rw [List.eq_of_mem_replicate member]
    rfl
  · exact fun c member => isDigit_of_mem_naturalDigits member

theorem numberOf_atLeastDigits (width n : Nat) : numberOf (atLeastDigits width n) = n := by
  have zeros (count : Nat) : numberOf (List.replicate count '0') = 0 := by
    unfold numberOf
    rw [Nat.ofDigitChars_replicate_zero, Nat.mul_zero]
  have number : numberOf (naturalDigits n) = n := ofDigitChars_naturalDigits n
  unfold atLeastDigits
  rw [numberOf_append, zeros, number, Nat.zero_mul, Nat.zero_add]

theorem atLeastDigits_ne_nil (width n : Nat) : atLeastDigits width n ≠ [] := by
  intro none
  exact naturalDigits_ne_nil n (List.append_eq_nil_iff.1 none).2

theorem length_atLeastDigits (some : 0 < width) (small : n < 10 ^ width) :
    (atLeastDigits width n).length = width := by
  have short : (naturalDigits n).length ≤ width :=
    (Nat.length_toDigits_le_iff (by decide) some).2 small
  unfold atLeastDigits
  rw [List.length_append, List.length_replicate]
  omega

theorem atLeastDigits_eq_paddedDigits (some : 0 < width) (small : n < 10 ^ width) :
    atLeastDigits width n = paddedDigits width n :=
  eq_paddedDigits (allDigits_atLeastDigits width n) (length_atLeastDigits some small)
    (numberOf_atLeastDigits width n)

end Padded

namespace Decimal

/-- The part of a number from the point on. -/
def pointed : Option (List Char) → List Char
  | none => []
  | some places => '.' :: places

/-- A number as it is written: a sign, digits, and perhaps a point with digits after it. There is at
least one digit. -/
structure Numeral where
  negative : Bool
  whole : List Char
  part : Option (List Char)
  digits : AllDigits (whole ++ part.getD []) := by decide
  nonempty : whole ++ part.getD [] ≠ [] := by decide

namespace Numeral

/-- The digits after the point. -/
def places (n : Numeral) : List Char :=
  n.part.getD []

def toChars (n : Numeral) : List Char :=
  (if n.negative then ['-'] else []) ++ (n.whole ++ pointed n.part)

/-- The number that is written, without its sign. -/
def magnitude (n : Numeral) : ℚ :=
  numberOf (n.whole ++ n.places) / 10 ^ n.places.length

/-- The number that is written. -/
def value (n : Numeral) : ℚ :=
  if n.negative then -n.magnitude else n.magnitude

/-- The digits up to a place after the point, as a whole number. -/
def mantissa (n : Numeral) (count : Nat) : Nat :=
  numberOf (n.whole ++ n.places.take count)

/-- The number of places that a decimal has room for. -/
def room (n : Numeral) : Nat :=
  Nat.findGreatest (fun count => n.mantissa count < mantissaLimit) (min maxScale n.places.length)

end Numeral

/-- The value of the first digit; nothing counts as zero. -/
def leadingDigit : List Char → Nat
  | [] => 0
  | c :: _ => digitValue c

/-! ## Reading numerals -/

section Reading

variable {negative seen : Bool} {mantissa scale : Nat} {c : Char} {whole places rest : List Char}

theorem onlyDigits_of_allDigits (digits : AllDigits places) : onlyDigits places = .ok () := by
  induction places with
  | nil => rfl
  | cons c rest ih =>
    obtain ⟨digit, digits⟩ := allDigits_cons.1 digits
    unfold onlyDigits
    rw [if_pos digit, ih digits]

theorem readFrom_digit (digit : c.isDigit = true) (point : Bool) :
    readFrom negative seen point mantissa scale (c :: rest) =
      if 10 * mantissa + digitValue c < mantissaLimit ∧ scale < maxScale then
        readFrom negative true point (10 * mantissa + digitValue c)
          (if point then scale + 1 else scale) rest
      else if point then do
        let decimal ← roundLast negative mantissa scale (digitValue c)
        onlyDigits rest
        pure decimal
      else
        .error .tooManyDigits := by
  rw [readFrom, if_pos digit]

/-- Before the point there is room for a digit or there is a fault. -/
theorem readFrom_whole (digits : AllDigits whole) (small : mantissa < mantissaLimit) :
    readFrom negative seen false mantissa 0 (whole ++ rest) =
      if Nat.ofDigitChars 10 whole mantissa < mantissaLimit then
        readFrom negative (seen || !whole.isEmpty) false (Nat.ofDigitChars 10 whole mantissa) 0 rest
      else
        .error .tooManyDigits := by
  induction whole generalizing seen mantissa with
  | nil => simp [small]
  | cons c whole ih =>
    obtain ⟨digit, digits⟩ := allDigits_cons.1 digits
    have next : Nat.ofDigitChars 10 (c :: whole) mantissa =
        Nat.ofDigitChars 10 whole (10 * mantissa + digitValue c) := Nat.ofDigitChars_cons
    rw [List.cons_append, readFrom_digit digit, next]
    by_cases fits : 10 * mantissa + digitValue c < mantissaLimit
    · rw [if_pos ⟨fits, by decide⟩, if_neg Bool.false_ne_true, ih digits fits]
      simp
    · have large := le_ofDigitChars whole (10 * mantissa + digitValue c)
      rw [if_neg fun room => fits room.1, if_neg Bool.false_ne_true, if_neg (by omega)]

/-- How many places are taken up after the point: as many as there are, or as there is room for. -/
structure Takes (mantissa scale : Nat) (places : List Char) (count : Nat) : Prop where
  le_length : count ≤ places.length
  le_scale : scale + count ≤ maxScale
  fits : Nat.ofDigitChars 10 (places.take count) mantissa < mantissaLimit
  full : count < places.length → scale + count = maxScale ∨
    mantissaLimit ≤ Nat.ofDigitChars 10 (places.take (count + 1)) mantissa

theorem roundLast_of_lt {digit : Nat} (low : digit < 5) (fits : mantissa < mantissaLimit)
    (small : scale ≤ 28) :
    roundLast negative mantissa scale digit = .ok ⟨negative, mantissa, scale, fits, small⟩ := by
  unfold roundLast
  dsimp only
  rw [if_neg (Nat.not_le.2 low), ofParts?_of_fits negative fits small]

theorem roundLast_of_le {digit : Nat} (high : 5 ≤ digit) (fits : mantissa + 1 < mantissaLimit)
    (small : scale ≤ 28) :
    roundLast negative mantissa scale digit = .ok ⟨negative, mantissa + 1, scale, fits, small⟩ := by
  unfold roundLast
  dsimp only
  rw [if_pos high, ofParts?_of_fits negative fits small]

/-- At the end nothing is left over that could round the number. -/
theorem readFrom_nil (fits : mantissa < mantissaLimit) (small : scale ≤ 28) (point : Bool) :
    readFrom negative true point mantissa scale [] = roundLast negative mantissa scale 0 := by
  rw [roundLast_of_lt (by decide) fits small]
  unfold readFrom
  simp only [ofParts?_of_fits negative fits small]

/-- After the point the places for which there is room are taken up, and the next one rounds. -/
theorem readFrom_places (negative : Bool) (digits : AllDigits places) (some : seen = true ∨ places ≠ [])
    (small : mantissa < mantissaLimit) (fine : scale ≤ maxScale) :
    ∃ count, Takes mantissa scale places count ∧
      readFrom negative seen true mantissa scale places =
        roundLast negative (Nat.ofDigitChars 10 (places.take count) mantissa) (scale + count)
          (leadingDigit (places.drop count)) := by
  induction places generalizing seen mantissa scale with
  | nil =>
    obtain rfl : seen = true := some.resolve_right fun nonempty => nonempty rfl
    refine ⟨0, ⟨Nat.le_refl _, fine, small, fun more => absurd more (Nat.not_lt_zero _)⟩, ?_⟩
    exact readFrom_nil small fine true
  | cons c rest ih =>
    obtain ⟨digit, digits⟩ := allDigits_cons.1 digits
    rw [readFrom_digit digit]
    by_cases more : 10 * mantissa + digitValue c < mantissaLimit ∧ scale < maxScale
    · obtain ⟨count, takes, read⟩ := ih digits (.inl rfl) more.1 more.2
      have shift : scale + 1 + count = scale + (count + 1) := Nat.add_right_comm scale 1 count
      refine ⟨count + 1, ⟨Nat.succ_le_succ takes.le_length, ?_, takes.fits, fun left => ?_⟩, ?_⟩
      · rw [← shift]
        exact takes.le_scale
      · rw [← shift]
        exact takes.full (Nat.lt_of_succ_lt_succ left)
      · rw [if_pos more, if_pos rfl, read, shift]
        rfl
    · refine ⟨0, ⟨Nat.zero_le _, fine, small, fun _ => ?_⟩, ?_⟩
      · rcases Nat.lt_or_eq_of_le fine with coarse | finest
        · exact .inr (Nat.not_lt.1 fun fits => more ⟨fits, coarse⟩)
        · exact .inl finest
      · rw [if_neg more, if_pos rfl, onlyDigits_of_allDigits digits]
        show _ = roundLast negative mantissa scale (digitValue c)
        cases roundLast negative mantissa scale (digitValue c) <;> rfl

end Reading

/-! ## Nothing else is read -/

section Grammar

variable {negative seen : Bool} {mantissa scale : Nat} {text : List Char} {decimal : Decimal}

theorem allDigits_of_onlyDigits (h : onlyDigits text = .ok ()) : AllDigits text := by
  induction text with
  | nil => exact allDigits_nil
  | cons c rest ih =>
    unfold onlyDigits at h
    split at h
    · next digit => exact allDigits_cons.2 ⟨digit, ih h⟩
    · cases h

theorem seen_of_readFrom_nil {point : Bool}
    (h : readFrom negative seen point mantissa scale [] = .ok decimal) : seen = true := by
  unfold readFrom at h
  split at h
  · rfl
  · cases h

/-- After the point there is nothing but digits. -/
theorem allDigits_of_readFrom
    (h : readFrom negative seen true mantissa scale text = .ok decimal) :
    AllDigits text ∧ (seen = true ∨ text ≠ []) := by
  induction text generalizing seen mantissa scale with
  | nil => exact ⟨allDigits_nil, .inl (seen_of_readFrom_nil h)⟩
  | cons c rest ih =>
    refine ⟨?_, .inr (List.cons_ne_nil c rest)⟩
    by_cases digit : c.isDigit = true
    · refine allDigits_cons.2 ⟨digit, ?_⟩
      rw [readFrom_digit digit] at h
      split at h
      · exact (ih h).1
      · rw [if_pos rfl] at h
        cases rounded : roundLast negative mantissa scale (digitValue c) with
        | error fault =>
          rw [rounded] at h
          cases h
        | ok decimal =>
          cases checked : onlyDigits rest with
          | error fault =>
            rw [rounded, checked] at h
            cases h
          | ok _ => exact allDigits_of_onlyDigits checked
    · rw [readFrom, if_neg digit, if_neg (by simp)] at h
      cases h

theorem exists_pointed_of_readFrom
    (h : readFrom negative seen false mantissa scale text = .ok decimal) :
    ∃ whole part, text = whole ++ pointed part ∧ AllDigits (whole ++ part.getD []) ∧
      (seen = true ∨ whole ++ part.getD [] ≠ []) := by
  induction text generalizing seen mantissa with
  | nil => exact ⟨[], none, rfl, allDigits_nil, .inl (seen_of_readFrom_nil h)⟩
  | cons c rest ih =>
    by_cases digit : c.isDigit = true
    · rw [readFrom_digit digit] at h
      split at h
      · obtain ⟨whole, part, rfl, digits, -⟩ := ih h
        exact ⟨c :: whole, part, rfl, allDigits_cons.2 ⟨digit, digits⟩, .inr (List.cons_ne_nil _ _)⟩
      · rw [if_neg Bool.false_ne_true] at h
        cases h
    · rw [readFrom, if_neg digit] at h
      split at h
      · next point =>
        obtain ⟨digits, nonempty⟩ := allDigits_of_readFrom h
        exact ⟨[], some rest, by rw [point.1]; rfl, digits, nonempty⟩
      · cases h

/-- What is read is a numeral. -/
theorem exists_numeral_of_read (h : read text = .ok decimal) : ∃ n : Numeral, n.toChars = text := by
  unfold read at h
  split at h
  · cases h
  · obtain ⟨whole, part, rfl, digits, nonempty⟩ := exists_pointed_of_readFrom h
    exact ⟨⟨true, whole, part, digits, nonempty.resolve_left Bool.false_ne_true⟩, rfl⟩
  · obtain ⟨whole, part, rfl, digits, nonempty⟩ := exists_pointed_of_readFrom h
    exact ⟨⟨false, whole, part, digits, nonempty.resolve_left Bool.false_ne_true⟩, rfl⟩

end Grammar

/-! ## What is read of a numeral -/

namespace Numeral

variable {n : Numeral}

theorem allDigits_places (n : Numeral) : AllDigits n.places :=
  n.digits.of_append_right

theorem mantissa_eq (n : Numeral) (count : Nat) :
    n.mantissa count = Nat.ofDigitChars 10 (n.places.take count) (numberOf n.whole) :=
  Nat.ofDigitChars_append 0

theorem mantissa_zero (n : Numeral) : n.mantissa 0 = numberOf n.whole := by
  rw [mantissa_eq, List.take_zero]
  rfl

theorem mantissa_mono {count count' : Nat} (h : count ≤ count') :
    n.mantissa count ≤ n.mantissa count' := by
  have split : n.places.take count' =
      n.places.take count ++ (n.places.take count').drop count := by
    have front := List.take_append_drop count (n.places.take count')
    rwa [List.take_take, Nat.min_eq_left h, eq_comm] at front
  rw [mantissa_eq, mantissa_eq, split, Nat.ofDigitChars_append]
  exact le_ofDigitChars _ _

theorem room_le (n : Numeral) : n.room ≤ maxScale ∧ n.room ≤ n.places.length :=
  Nat.le_min.1 (Nat.findGreatest_le _)

theorem length_take_room (n : Numeral) : (n.places.take n.room).length = n.room := by
  rw [List.length_take, Nat.min_eq_left n.room_le.2]

theorem mantissa_room_lt (fits : n.mantissa 0 < mantissaLimit) : n.mantissa n.room < mantissaLimit :=
  Nat.findGreatest_spec (P := fun count => n.mantissa count < mantissaLimit) (Nat.zero_le _) fits

/-- A place is left over if there are 28 before it or the mantissa has run out of its 96 bits. -/
theorem full_of_room_lt (left : n.room < n.places.length) :
    n.room = maxScale ∨ mantissaLimit ≤ n.mantissa (n.room + 1) := by
  rcases Nat.lt_or_eq_of_le n.room_le.1 with coarse | finest
  · refine .inr (Nat.not_lt.1 ?_)
    exact Nat.findGreatest_is_greatest (P := fun count => n.mantissa count < mantissaLimit)
      (Nat.lt_succ_self _) (Nat.le_min.2 ⟨coarse, left⟩)
  · exact .inl finest

theorem room_eq {count : Nat} (takes : Takes (numberOf n.whole) 0 n.places count) :
    n.room = count := by
  refine Nat.findGreatest_eq_iff.2 ⟨?_, fun _ => ?_, fun more after within => ?_⟩
  · exact Nat.le_min.2 ⟨by have := takes.le_scale; omega, takes.le_length⟩
  · rw [mantissa_eq]
    exact takes.fits
  · obtain ⟨fine, long⟩ := Nat.le_min.1 within
    rcases takes.full (Nat.lt_of_lt_of_le after long) with finest | full
    · omega
    · rw [← mantissa_eq] at full
      exact Nat.not_lt.2 (Nat.le_trans full (mantissa_mono after))

/-- A numeral begins with its sign, or else with a digit or the point. -/
theorem read_toChars (n : Numeral) :
    read n.toChars = readFrom n.negative false false 0 0 (n.whole ++ pointed n.part) := by
  obtain ⟨negative, whole, part, digits, nonempty⟩ := n
  cases negative with
  | true => rfl
  | false =>
    cases whole with
    | nil =>
      cases part with
      | none => exact absurd rfl nonempty
      | some places => rfl
    | cons c whole =>
      have noMinus : c ≠ '-' := by
        rintro rfl
        exact absurd (allDigits_cons.1 digits.of_append_left).1 (by decide)
      unfold toChars read
      split
      · next none => cases none
      · next first => exact absurd (List.cons.inj first).1 noMinus
      · rfl

/-- The places for which there is room are read, and the next one rounds. -/
theorem read_eq (n : Numeral) :
    read n.toChars =
      if n.mantissa 0 < mantissaLimit then
        roundLast n.negative (n.mantissa n.room) n.room (leadingDigit (n.places.drop n.room))
      else
        .error .tooManyDigits := by
  have start : n.mantissa 0 = Nat.ofDigitChars 10 n.whole 0 := n.mantissa_zero
  rw [read_toChars, readFrom_whole n.digits.of_append_left (by decide), ← start]
  refine ite_congr rfl (fun small => ?_) fun _ => rfl
  rw [Bool.false_or]
  cases part : n.part with
  | none =>
    have none : n.places = [] := by
      unfold places
      rw [part]
      rfl
    have some : n.whole.isEmpty = false := by
      have nonempty := n.nonempty
      rw [part, Option.getD_none, List.append_nil] at nonempty
      simpa using nonempty
    have whole : n.room = 0 := by
      have := n.room_le.2
      rwa [none, List.length_nil, Nat.le_zero] at this
    rw [some, whole, none]
    exact readFrom_nil small (by decide) false
  | some places =>
    have same : n.places = places := by
      unfold Numeral.places
      rw [part]
      rfl
    have some : (!n.whole.isEmpty) = true ∨ n.places ≠ [] := by
      have nonempty := n.nonempty
      by_cases none : n.whole = []
      · rw [none, List.nil_append] at nonempty
        exact .inr nonempty
      · exact .inl (by simpa using none)
    obtain ⟨count, takes, read⟩ := readFrom_places n.negative n.allDigits_places some small (Nat.zero_le _)
    rw [start] at takes read
    have taken : n.mantissa count =
        Nat.ofDigitChars 10 (n.places.take count) (Nat.ofDigitChars 10 n.whole 0) :=
      n.mantissa_eq count
    rw [← taken, Nat.zero_add, same] at read
    rw [room_eq takes, start, same]
    unfold pointed
    rw [readFrom, if_neg (by decide), if_pos ⟨rfl, rfl⟩]
    exact read

end Numeral

end Decimal
end ExpenseLedger
