import ExpenseLedger.Numeric.Decimal

/-!
# Decimals from text

The grammar is an optional minus sign and digits with at most one point among them. Digits past
what a decimal can hold are an error before the point; after the point the first of them rounds
the number and the rest are only checked to be digits.
-/

namespace ExpenseLedger

/-- What is wrong with a text that should be a decimal. -/
inductive DecimalFault where
  | empty
  | noDigits
  | secondPoint
  | unknownCharacter
  | tooManyDigits
  | roundedPastLimit
  deriving DecidableEq, Repr

def DecimalFault.message : DecimalFault → String
  | .empty => "Invalid decimal: empty"
  | .noDigits => "Invalid decimal: no digits found"
  | .secondPoint => "Invalid decimal: two decimal points"
  | .unknownCharacter => "Invalid decimal: unknown character"
  | .tooManyDigits => "Invalid decimal: overflow from too many digits"
  | .roundedPastLimit => "Invalid decimal: overflow from mantissa after rounding"

namespace Decimal

/-- The fault of a character that stands where only a digit may. -/
def misplaced (c : Char) : DecimalFault :=
  if c = '.' then .secondPoint else .unknownCharacter

/-- Nothing but digits. -/
def onlyDigits : List Char → Except DecimalFault Unit
  | [] => .ok ()
  | c :: rest => if c.isDigit then onlyDigits rest else .error (misplaced c)

/-- Rounds a mantissa by the first digit that it cannot take up. A mantissa that rounds past
the limit gives up its own last digit. -/
def roundLast (negative : Bool) (mantissa scale digit : Nat) : Except DecimalFault Decimal :=
  let rounded := if 5 ≤ digit then mantissa + 1 else mantissa
  match ofParts? negative rounded scale with
  | some decimal => .ok decimal
  | none =>
    if scale = 0 then
      .error .roundedPastLimit
    else
      match ofParts? negative ((rounded + 4) / 10) (scale - 1) with
      | some decimal => .ok decimal
      | none => .error .roundedPastLimit

/-- Reads on from `mantissa · 10 ^ -scale`. `digits` tells whether a digit has been read and
`point` whether the point has. -/
def readFrom (negative digits point : Bool) (mantissa scale : Nat) :
    List Char → Except DecimalFault Decimal
  | [] =>
    match digits, ofParts? negative mantissa scale with
    | true, some decimal => .ok decimal
    | _, _ => .error .noDigits
  | c :: rest =>
    if c.isDigit then
      let next := 10 * mantissa + digitValue c
      if next < mantissaLimit ∧ scale < maxScale then
        readFrom negative true point next (if point then scale + 1 else scale) rest
      else if point then do
        let decimal ← roundLast negative mantissa scale (digitValue c)
        onlyDigits rest
        pure decimal
      else
        .error .tooManyDigits
    else if c = '.' ∧ point = false then
      readFrom negative digits true mantissa scale rest
    else
      .error (misplaced c)

def read : List Char → Except DecimalFault Decimal
  | [] => .error .empty
  | '-' :: rest => readFrom true false false 0 0 rest
  | text => readFrom false false false 0 0 text

end Decimal
end ExpenseLedger
