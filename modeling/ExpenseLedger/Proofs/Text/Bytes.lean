import Mathlib.Data.UInt
import Mathlib.Tactic.SplitIfs

/-!
# Texts as bytes

Files and ordered maps compare texts byte by byte. A greater character is written with greater bytes,
whatever comes after them (`encodeChar_lt`), so this order is the one of the characters
(`bytesOf_lt_iff`), and a text begins with another exactly if its bytes do (`bytesOf_prefix_iff`).
-/

namespace ExpenseLedger

/-- The bytes that a text is written with. -/
def bytesOf (text : String) : List UInt8 :=
  text.toUTF8.data.toList

section Order

variable {a b : String} {c d : Char} {chars others : List Char} {x y : List UInt8} {m n : Nat}

theorem bytesOf_eq (text : String) : bytesOf text = text.toList.flatMap String.utf8EncodeChar := by
  unfold bytesOf String.toUTF8
  rw [← String.utf8Encode_toList, List.utf8Encode, List.toList_data_toByteArray]

/-- Every character takes a byte. -/
theorem length_le_utf8ByteSize (text : String) : text.toList.length ≤ text.utf8ByteSize := by
  have bytes : text.utf8ByteSize = (text.toList.flatMap String.utf8EncodeChar).length := by
    rw [← bytesOf_eq]
    rfl
  rw [bytes]
  induction text.toList with
  | nil => exact Nat.le_refl 0
  | cons c rest ih =>
    have := Char.utf8Size_pos c
    rw [List.flatMap_cons, List.length_cons, List.length_append, String.length_utf8EncodeChar]
    omega

theorem cons_ofNat_lt_iff (low : m < 256) (high : n < 256) :
    UInt8.ofNat m :: x < UInt8.ofNat n :: y ↔ m < n ∨ m = n ∧ x < y := by
  rw [List.cons_lt_cons_iff, UInt8.lt_iff_toNat_lt, ← UInt8.toNat_inj, UInt8.toNat_ofNat_of_lt' low,
    UInt8.toNat_ofNat_of_lt' high]

theorem codePoint_lt (c : Char) : c.val.toNat < 1114112 := by
  rcases c.valid with below | ⟨-, above⟩
  · exact Nat.lt_trans below (by decide)
  · exact above

/-- Characters of one length are compared digit by digit in base 64, from the highest digit on; those
of different lengths by their first byte. -/
theorem encodeChar_lt (less : c < d) (x y : List UInt8) :
    String.utf8EncodeChar c ++ x < String.utf8EncodeChar d ++ y := by
  have less : c.val.toNat < d.val.toNat := less
  have bound := codePoint_lt d
  unfold String.utf8EncodeChar
  dsimp only
  generalize c.val.toNat = m at less
  generalize d.val.toNat = n at less bound
  have second : m / 64 < n / 64 →
      m / 4096 < n / 4096 ∨ m / 4096 = n / 4096 ∧ m / 64 % 64 < n / 64 % 64 := by
    omega
  have third : m / 4096 < n / 4096 →
      m / 262144 < n / 262144 ∨ m / 262144 = n / 262144 ∧ m / 4096 % 64 < n / 4096 % 64 := by
    omega
  have top : m / 262144 % 8 = m / 262144 := Nat.mod_eq_of_lt (by omega)
  have top' : n / 262144 % 8 = n / 262144 := Nat.mod_eq_of_lt (by omega)
  rw [top, top']
  split_ifs <;>
    simp (disch := omega) only [List.cons_append, List.nil_append, cons_ofNat_lt_iff] <;> omega

theorem encodeChars_lt (less : chars < others) :
    chars.flatMap String.utf8EncodeChar < others.flatMap String.utf8EncodeChar := by
  induction chars generalizing others with
  | nil =>
    cases others with
    | nil => exact absurd less (List.lt_irrefl [])
    | cons d rest =>
      rw [List.flatMap_nil, List.flatMap_cons]
      cases bytes : String.utf8EncodeChar d with
      | nil => exact absurd bytes String.utf8EncodeChar_ne_nil
      | cons byte bytes => exact List.nil_lt_cons _ _
  | cons c chars ih =>
    cases others with
    | nil => exact absurd less (List.not_lt_nil _)
    | cons d rest =>
      rw [List.flatMap_cons, List.flatMap_cons]
      rcases List.cons_lt_cons_iff.1 less with head | ⟨rfl, tail⟩
      · exact encodeChar_lt head _ _
      · exact List.append_left_lt (ih tail)

/-- Comparing texts byte by byte is comparing them character by character. -/
theorem bytesOf_lt_iff : bytesOf a < bytesOf b ↔ a < b := by
  have mono {a b : String} (less : a < b) : bytesOf a < bytesOf b := by
    rw [bytesOf_eq, bytesOf_eq]
    exact encodeChars_lt less
  constructor
  · intro less
    apply String.not_le.1
    intro ge
    rcases Decidable.em (b < a) with greater | notGreater
    · exact List.lt_asymm (mono greater) less
    · rw [String.le_antisymm (String.not_lt.1 notGreater) ge] at less
      exact List.lt_irrefl _ less
  · exact mono

theorem bytesOf_le_iff : bytesOf a ≤ bytesOf b ↔ a ≤ b := by
  rw [← List.not_lt, ← String.not_lt, bytesOf_lt_iff]

/-- A text begins with another if its bytes do. -/
theorem bytesOf_prefix_iff : bytesOf a <+: bytesOf b ↔ a.toList <+: b.toList := by
  constructor
  · rintro ⟨rest, same⟩
    refine List.isPrefix_of_utf8Encode_append_eq_utf8Encode rest.toByteArray ?_
    rw [String.utf8Encode_toList, String.utf8Encode_toList]
    apply ByteArray.ext
    apply Array.toList_inj.1
    rw [ByteArray.data_append, Array.toList_append, List.toList_data_toByteArray]
    exact same
  · rintro ⟨rest, same⟩
    rw [bytesOf_eq, bytesOf_eq, ← same, List.flatMap_append]
    exact List.prefix_append _ _

end Order

end ExpenseLedger
