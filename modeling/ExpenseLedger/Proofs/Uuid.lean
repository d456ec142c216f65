import ExpenseLedger.Uuid
import Mathlib.Algebra.Order.Ring.Int

/-!
# Identifiers written and read back

The canonical text of an identifier is read as the identifier.
-/

namespace ExpenseLedger
namespace Uuid

/-- The value of a digit that is one. -/
def hexValue (c : Char) : Nat :=
  (Json.hexValue? c).getD 0

/-- The number that digits continue. -/
def ofHexDigits (value : Nat) (digits : List Char) : Nat :=
  digits.foldl (fun value c => 16 * value + hexValue c) value

/-- All characters are digits. -/
def AllHex (digits : List Char) : Prop :=
  ∀ c ∈ digits, (Json.hexValue? c).isSome = true

theorem hexValue?_hexDigit (n : Nat) : Json.hexValue? (Json.hexDigit n) = some (n % 16) := by
  have small : n % 16 < 16 := Nat.mod_lt _ (by decide)
  unfold Json.hexDigit
  generalize n % 16 = digit at small
  have all : ∀ digit < 16, Json.hexValue? (Nat.digitChar digit) = some digit := by decide
  exact all digit small

theorem length_hexDigits (width n : Nat) : (hexDigits width n).length = width := by
  induction width generalizing n with
  | zero => rfl
  | succ width ih =>
    unfold hexDigits
    rw [List.length_append, ih]
    rfl

theorem exists_of_mem_hexDigits {width n : Nat} {c : Char} (h : c ∈ hexDigits width n) :
    ∃ digit, c = Json.hexDigit digit := by
  induction width generalizing n with
  | zero => cases h
  | succ width ih =>
    rcases List.mem_append.1 h with front | last
    · exact ih front
    · exact ⟨n, List.mem_singleton.1 last⟩

theorem allHex_hexDigits (width n : Nat) : AllHex (hexDigits width n) := by
  intro c member
  obtain ⟨digit, rfl⟩ := exists_of_mem_hexDigits member
  rw [hexValue?_hexDigit]
  rfl

theorem ofHexDigits_hexDigits (width n : Nat) :
    ofHexDigits 0 (hexDigits width n) = n % 16 ^ width := by
  induction width generalizing n with
  | zero =>
    rw [Nat.pow_zero, Nat.mod_one]
    rfl
  | succ width ih =>
    have value : hexValue (Json.hexDigit n) = n % 16 := by
      unfold hexValue
      rw [hexValue?_hexDigit]
      rfl
    have front := ih (n / 16)
    unfold ofHexDigits at front
    unfold ofHexDigits hexDigits
    rw [List.foldl_append, front, List.foldl_cons, List.foldl_nil, value, Nat.pow_succ',
      Nat.mod_mul]
    omega

/-! ## Reading -/

theorem readHex?_append {digits : List Char} (hex : AllHex digits) (value : Nat)
    (rest : List Char) :
    readHex? digits.length value (digits ++ rest) = some (ofHexDigits value digits, rest) := by
  induction digits generalizing value with
  | nil => rfl
  | cons c digits ih =>
    obtain ⟨digit, read⟩ := Option.isSome_iff_exists.1 (hex c List.mem_cons_self)
    have tail := ih (fun d member => hex d (List.mem_cons_of_mem _ member)) (16 * value + digit)
    have here : hexValue c = digit := by
      unfold hexValue
      rw [read]
      rfl
    unfold ofHexDigits at tail ⊢
    rw [List.foldl_cons, here, ← tail, List.length_cons, List.cons_append]
    simp only [readHex?, read, Option.bind_eq_bind, Option.bind_some]

theorem readGroups?_hyphenate {sizes : List Nat} (some : sizes ≠ []) {text : List Char}
    (hex : AllHex text) (length : text.length = sizes.sum) (value : Nat) :
    readGroups? sizes value (hyphenate sizes text) = .some (ofHexDigits value text, []) := by
  induction sizes generalizing text value with
  | nil => exact absurd rfl some
  | cons size sizes ih =>
    rw [List.sum_cons] at length
    cases sizes with
    | nil =>
      have read := readHex?_append hex value []
      rw [List.append_nil] at read
      have whole : text.take size = text := List.take_of_length_le (by simp at length; omega)
      simp only [List.sum_nil, Nat.add_zero] at length
      unfold readGroups? hyphenate
      rw [whole, ← length]
      exact read
    | cons next sizes =>
      have frontHex : AllHex (text.take size) := fun c member => hex c (List.mem_of_mem_take member)
      have backHex : AllHex (text.drop size) := fun c member => hex c (List.mem_of_mem_drop member)
      have front := readHex?_append frontHex value
        ('-' :: hyphenate (next :: sizes) (text.drop size))
      have back := ih (by simp) backHex (by rw [List.length_drop]; omega)
        (ofHexDigits value (text.take size))
      have frontLength : (text.take size).length = size := by
        rw [List.length_take]
        omega
      rw [frontLength] at front
      have together : ofHexDigits value text =
          ofHexDigits (ofHexDigits value (text.take size)) (text.drop size) := by
        unfold ofHexDigits
        rw [← List.foldl_append, List.take_append_drop]
      unfold hyphenate readGroups?
      rw [front, together]
      exact back

theorem length_hyphenate {sizes : List Nat} (nonempty : sizes ≠ []) {text : List Char}
    (length : text.length = sizes.sum) :
    (hyphenate sizes text).length + 1 = sizes.sum + sizes.length := by
  induction sizes generalizing text with
  | nil => exact absurd rfl nonempty
  | cons size sizes ih =>
    rw [List.sum_cons] at length
    cases sizes with
    | nil =>
      simp only [List.sum_nil, Nat.add_zero] at length
      unfold hyphenate
      rw [List.length_take, length]
      simp
    | cons next sizes =>
      have back : (hyphenate (next :: sizes) (text.drop size)).length + 1 =
          (next :: sizes).sum + (next :: sizes).length :=
        ih (by simp) (by rw [List.length_drop]; omega)
      unfold hyphenate
      rw [List.length_append, List.length_take, List.length_cons, List.sum_cons, List.length_cons]
      omega

/-- A text that begins with a digit is not wrapped in anything. -/
theorem unwrap_hexDigit (digit : Nat) (rest : List Char) :
    unwrap (Json.hexDigit digit :: rest) = Json.hexDigit digit :: rest := by
  have noBrace : Json.hexDigit digit ≠ '\x7b' ∧ (Json.hexDigit digit).toLower ≠ 'u' := by
    have small : digit % 16 < 16 := Nat.mod_lt _ (by decide)
    unfold Json.hexDigit
    generalize digit % 16 = value at small
    have all : ∀ value < 16,
        Nat.digitChar value ≠ '\x7b' ∧ (Nat.digitChar value).toLower ≠ 'u' := by decide
    exact all value small
  unfold unwrap urn
  rw [if_neg, if_neg]
  · simp [noBrace.2]
  · simp [noBrace.1]

/-- The canonical text of an identifier is read as the identifier. -/
theorem ofText?_toText (id : Uuid) : ofText? id.toText = some id := by
  have length : (hexDigits 32 id.value).length = groups.sum := length_hexDigits 32 id.value
  have some : groups ≠ [] := by decide
  have long := length_hyphenate some length
  have read := readGroups?_hyphenate some (allHex_hexDigits 32 id.value)
    length 0
  have value : ofHexDigits 0 (hexDigits 32 id.value) = id.value := by
    rw [ofHexDigits_hexDigits]
    exact Nat.mod_eq_of_lt id.value_lt
  have plain : unwrap (hyphenate groups (hexDigits 32 id.value)) =
      hyphenate groups (hexDigits 32 id.value) := by
    cases front : hexDigits 32 id.value with
    | nil =>
      rw [front] at length
      cases length
    | cons c rest =>
      have first : c ∈ hexDigits 32 id.value := by
        rw [front]
        exact List.mem_cons_self
      obtain ⟨digit, rfl⟩ := exists_of_mem_hexDigits first
      exact unwrap_hexDigit digit _
  have notShort : (hyphenate groups (hexDigits 32 id.value)).length ≠ 32 := by
    intro short
    rw [short] at long
    exact absurd long (by decide)
  unfold ofText? toText
  rw [String.toList_ofList]
  unfold ofChars?
  rw [if_neg notShort, plain, read, value]
  exact dif_pos id.value_lt

end Uuid
end ExpenseLedger
