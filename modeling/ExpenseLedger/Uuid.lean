import ExpenseLedger.Json.Text
import ExpenseLedger.Json.Value

/-!
# Universally unique identifiers

A 128-bit number, written in lower case with hyphens after 8, 12, 16 and 20 of its 32
hexadecimal digits. Three more spellings are read: without hyphens, in braces, and as a URN.
-/

namespace ExpenseLedger

/-- The least number that 128 bits do not hold. -/
def Uuid.limit : Nat := 0x100000000000000000000000000000000

structure Uuid where
  value : Nat
  value_lt : value < Uuid.limit := by decide
  deriving DecidableEq

namespace Uuid

instance : Inhabited Uuid := ⟨{ value := 0 }⟩

/-- The sizes of the groups between the hyphens. -/
def groups : List Nat := [8, 4, 4, 4, 12]

/-- The last `width` hexadecimal digits of a number. -/
def hexDigits : Nat → Nat → List Char
  | 0, _ => []
  | width + 1, n => hexDigits width (n / 16) ++ [Json.hexDigit n]

/-- Cuts a text into groups of the given sizes with hyphens between them. -/
def hyphenate : List Nat → List Char → List Char
  | [], _ => []
  | [size], text => text.take size
  | size :: sizes, text => text.take size ++ '-' :: hyphenate sizes (text.drop size)

/-- The canonical text. -/
def toText (id : Uuid) : String :=
  String.ofList (hyphenate groups (hexDigits 32 id.value))

instance : ToString Uuid := ⟨toText⟩

/-- Takes `count` hexadecimal digits off a text, onto a number. -/
def readHex? : Nat → Nat → List Char → Option (Nat × List Char)
  | 0, value, text => some (value, text)
  | _ + 1, _, [] => none
  | count + 1, value, c :: rest => do
    let digit ← Json.hexValue? c
    readHex? count (16 * value + digit) rest

/-- Takes groups of digits with hyphens between them off a text. -/
def readGroups? : List Nat → Nat → List Char → Option (Nat × List Char)
  | [], value, text => some (value, text)
  | [size], value, text => readHex? size value text
  | size :: sizes, value, text => do
    let (value, rest) ← readHex? size value text
    match rest with
    | '-' :: rest => readGroups? sizes value rest
    | _ => none

/-- The identifier of a number, if 128 bits hold it. -/
def ofNat? (n : Nat) : Option Uuid :=
  if h : n < limit then some { value := n, value_lt := h } else none

/-- Reads a form that takes up a whole text. -/
def whole? (result : Option (Nat × List Char)) : Option Uuid := do
  let (value, rest) ← result
  if rest.isEmpty then ofNat? value else none

/-- What stands in front of a URN, in any case. -/
def urn : List Char := ['u', 'r', 'n', ':', 'u', 'u', 'i', 'd', ':']

/-- The text without what wraps a hyphenated identifier. -/
def unwrap (text : List Char) : List Char :=
  if text.head? = some '\x7b' ∧ text.getLast? = some '\x7d' then
    (text.drop 1).dropLast
  else if (text.take urn.length).map Char.toLower = urn then
    text.drop urn.length
  else
    text

def ofChars? (text : List Char) : Option Uuid :=
  if text.length = 32 then
    whole? (readHex? 32 0 text)
  else
    whole? (readGroups? groups 0 (unwrap text))

def ofText? (text : String) : Option Uuid :=
  ofChars? text.toList

end Uuid
end ExpenseLedger
