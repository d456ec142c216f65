import ExpenseLedger.Numeric.Decimal.Reading
import ExpenseLedger.Text.Blank

/-!
# Amounts of money

An amount is a whole number of minor units, a hundred of which make a major one. People write
amounts with currency signs, spaces and thousands separators, all of which are dropped; the
canonical text has a point and two places.
-/

namespace ExpenseLedger

/-- An amount of money in minor units. -/
structure Amount where
  minor : Int
  deriving DecidableEq, Repr, Inhabited

namespace Amount

def minorPerMajor : Nat := 100

/-- Amounts are ordered by their minor units. -/
instance : LE Amount := ⟨fun a b => a.minor ≤ b.minor⟩

instance (a b : Amount) : Decidable (a ≤ b) :=
  inferInstanceAs (Decidable (a.minor ≤ b.minor))

/-- Greater than nothing. -/
def isPositive (a : Amount) : Bool :=
  decide (0 < a.minor)

/-- The canonical text: major units, a point and two digits of minor units. -/
def toChars (a : Amount) : List Char :=
  let units := a.minor.natAbs
  (if a.minor < 0 then ['-'] else []) ++ naturalDigits (units / minorPerMajor) ++
    '.' :: paddedDigits 2 (units % minorPerMajor)

/-- The canonical text of an amount. -/
def toText (a : Amount) : String :=
  String.ofList a.toChars

instance : ToString Amount := ⟨toText⟩

inductive Fault where
  | emptyText
  | unreadable (text : String) (fault : DecimalFault)
  | outOfRange (text : String)
  deriving DecidableEq, Repr

def Fault.message : Fault → String
  | .emptyText => "empty string"
  | .unreadable text fault => "'" ++ text ++ "': " ++ fault.message
  | .outOfRange text => "'" ++ text ++ "' is out of range"

/-- The characters of a text that count; all others are dropped. -/
def isSignificant (c : Char) : Bool :=
  c.isDigit || c == '.' || c == '-'

def hundred : Decimal :=
  Decimal.whole 100

/-- The minor units of a decimal count of major units; digits past the second place are cut
off toward zero. -/
def ofDecimal? (value : Decimal) : Option Amount := do
  let product ← value.mul? hundred
  if FitsInt64 product.trunc then some ⟨product.trunc⟩ else none

/-- Reads an amount from what somebody wrote. -/
def parse (text : String) : Except Fault Amount :=
  let trimmed := trimChars text.toList
  if trimmed.isEmpty then
    .error .emptyText
  else
    match Decimal.read (trimmed.filter isSignificant) with
    | .error fault => .error (.unreadable text fault)
    | .ok value =>
      match ofDecimal? value with
      | some amount => .ok amount
      | none => .error (.outOfRange text)

end Amount
end ExpenseLedger
