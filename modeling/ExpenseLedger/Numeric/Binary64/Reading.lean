import ExpenseLedger.Numeric.Binary64
import ExpenseLedger.Numeric.IntegerText

/-!
# Doubles from text

A decimal text has a sign, digits with at most one point among them, and a power of ten; it
stands for the double nearest to its exact value.
-/

namespace ExpenseLedger
namespace Binary64

/-- The leading decimal digits of a text, and what follows them. -/
def spanDigits (text : List Char) : List Char × List Char :=
  text.span Char.isDigit

/-- The natural number written by decimal digits. -/
def digitsToNat (digits : List Char) : Nat :=
  Nat.ofDigitChars 10 digits 0

/-- The double nearest to the number with these digits before and after the point, times a
power of ten. -/
def ofDigits (negative : Bool) (whole part : List Char) (power : Int) : Binary64 :=
  ofDecimal negative (digitsToNat (whole ++ part)) (power - part.length)

/-- A power of ten written after the letter e, with an optional sign. -/
def readPower? (text : List Char) : Option Int :=
  let (negative, digits) :=
    match text with
    | '-' :: rest => (true, rest)
    | '+' :: rest => (false, rest)
    | rest => (false, rest)
  if digits.isEmpty || !digits.all Char.isDigit then
    none
  else
    let magnitude : Int := digitsToNat digits
    some (if negative then -magnitude else magnitude)

def readUnsigned? (negative : Bool) (text : List Char) : Option Binary64 :=
  let (whole, rest) := spanDigits text
  let (part, rest) :=
    match rest with
    | '.' :: rest => spanDigits rest
    | rest => ([], rest)
  if whole.isEmpty && part.isEmpty then
    none
  else
    match rest with
    | [] => some (ofDigits negative whole part 0)
    | c :: rest =>
      if c = 'e' ∨ c = 'E' then
        (readPower? rest).map (ofDigits negative whole part)
      else
        none

/-- The double that a text stands for: a decimal, `NaN`, `inf` or `infinity`, the words in any
case. -/
def ofText? (text : String) : Option Binary64 :=
  let (negative, body) :=
    match text.toList with
    | '-' :: rest => (true, rest)
    | '+' :: rest => (false, rest)
    | rest => (false, rest)
  match String.ofList (body.map Char.toLower) with
  | "nan" => some .nan
  | "inf" | "infinity" => some (.infinite negative)
  | _ => readUnsigned? negative body

end Binary64
end ExpenseLedger
