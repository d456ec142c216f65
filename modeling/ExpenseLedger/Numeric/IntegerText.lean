/-!
# Integers as text

Signed 64-bit integers written in decimal, and the reader that names the first thing wrong with
a text. The reader is laxer than the writer: a plus sign and leading zeros are accepted.
-/

namespace ExpenseLedger

/-- The smallest signed 64-bit integer. -/
def minInt64 : Int := -0x8000000000000000

/-- The largest signed 64-bit integer, at which expiry times saturate. -/
def maxInt64 : Int := 0x7fffffffffffffff

/-- The integer can be held in a signed 64-bit word. -/
def FitsInt64 (n : Int) : Prop :=
  minInt64 ≤ n ∧ n ≤ maxInt64

instance (n : Int) : Decidable (FitsInt64 n) :=
  inferInstanceAs (Decidable (_ ∧ _))

/-- The number in decimal digits, without leading zeros. -/
def naturalDigits (n : Nat) : List Char :=
  Nat.toDigits 10 n

/-- The integer in decimal digits, a minus sign in front of a negative one. -/
def integerDigits (n : Int) : List Char :=
  if n < 0 then '-' :: naturalDigits n.natAbs else naturalDigits n.natAbs

def integerText (n : Int) : String :=
  String.ofList (integerDigits n)

/-- The last `width` decimal digits of a number, zeros in front where it has fewer. -/
def paddedDigits : Nat → Nat → List Char
  | 0, _ => []
  | width + 1, n => paddedDigits width (n / 10) ++ [Nat.digitChar (n % 10)]

/-- The digits of a number, with zeros in front up to `width` digits. -/
def atLeastDigits (width n : Nat) : List Char :=
  let digits := naturalDigits n
  List.replicate (width - digits.length) '0' ++ digits

/-- The value of an ASCII decimal digit. -/
def digitValue (c : Char) : Nat :=
  c.toNat - '0'.toNat

inductive IntegerFault where
  | empty
  | invalidDigit
  | tooLarge
  | tooSmall
  deriving DecidableEq, Repr

def IntegerFault.message : IntegerFault → String
  | .empty => "cannot parse integer from empty string"
  | .invalidDigit => "invalid digit found in string"
  | .tooLarge => "number too large to fit in target type"
  | .tooSmall => "number too small to fit in target type"

/-- Reads digits onto `value`. The first character that is no digit, or that carries the value
past `limit`, decides the fault. -/
def readMagnitude (limit : Nat) (overflow : IntegerFault) (value : Nat) :
    List Char → Except IntegerFault Nat
  | [] => .ok value
  | c :: rest =>
    if c.isDigit then
      let next := 10 * value + digitValue c
      if next ≤ limit then readMagnitude limit overflow next rest else .error overflow
    else
      .error .invalidDigit

/-- Reads a signed 64-bit integer: an optional sign and at least one digit. -/
def readInt64 : List Char → Except IntegerFault Int
  | [] => .error .empty
  | '-' :: [] | '+' :: [] => .error .invalidDigit
  | '-' :: digits => (readMagnitude minInt64.natAbs .tooSmall 0 digits).map fun n => -(n : Int)
  | '+' :: digits => (readMagnitude maxInt64.natAbs .tooLarge 0 digits).map Int.ofNat
  | digits => (readMagnitude maxInt64.natAbs .tooLarge 0 digits).map Int.ofNat

end ExpenseLedger
