import ExpenseLedger.Numeric.IntegerText
import ExpenseLedger.Text.Pieces

/-!
# IPv4 addresses

Four bytes, written in decimal with points between them. A byte has no leading zeros.
-/

namespace ExpenseLedger
namespace Net

structure Ipv4 where
  a : UInt8
  b : UInt8
  c : UInt8
  d : UInt8
  deriving DecidableEq, Repr, Inhabited

namespace Ipv4

/-- The bytes of the address from the left. -/
def bytes (address : Ipv4) : List UInt8 :=
  [address.a, address.b, address.c, address.d]

/-- The address of a 32-bit number, its highest byte on the left. -/
def ofNumber (n : Nat) : Ipv4 :=
  { a := UInt8.ofNat (n / 0x1000000), b := UInt8.ofNat (n / 0x10000)
    c := UInt8.ofNat (n / 0x100), d := UInt8.ofNat n }

def chars (address : Ipv4) : List Char :=
  joinPieces '.' (address.bytes.map fun byte => naturalDigits byte.toNat)

/-- Reads a byte: one to three digits, no zero in front of another digit. -/
def byte? (digits : List Char) : Option UInt8 :=
  let n := Nat.ofDigitChars 10 digits 0
  if digits.isEmpty ∨ 3 < digits.length ∨ !digits.all Char.isDigit then none
  else if digits.head? = some '0' ∧ 1 < digits.length then none
  else if 255 < n then none
  else some (UInt8.ofNat n)

def ofChars? (text : List Char) : Option Ipv4 :=
  match piecesAt '.' text with
  | [a, b, c, d] => do
    some { a := ← byte? a, b := ← byte? b, c := ← byte? c, d := ← byte? d }
  | _ => none

end Ipv4
end Net
end ExpenseLedger
