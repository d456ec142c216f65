import ExpenseLedger.Numeric.PlainDecimal
import ExpenseLedger.Numeric.Power
import ExpenseLedger.Numeric.Rounding

/-!
# Decimals of 96 bits

A decimal is a signed 96-bit mantissa over a power of ten up to `10 ^ 28`. Products and
quotients are exact fractions rounded once, half to even, at the finest scale at which the
mantissa still fits.
-/

namespace ExpenseLedger

/-- The least number that 96 bits do not hold. -/
def Decimal.mantissaLimit : Nat := 0x1000000000000000000000000

/-- A signed decimal `± mantissa · 10 ^ -scale`. -/
structure Decimal where
  negative : Bool
  mantissa : Nat
  scale : Nat
  mantissa_lt : mantissa < Decimal.mantissaLimit := by decide
  scale_le : scale ≤ 28 := by decide
  deriving DecidableEq

namespace Decimal

/-- The finest scale of any decimal. -/
def maxScale : Nat := 28

def whole (n : Nat) (h : n < mantissaLimit := by decide) : Decimal :=
  { negative := false, mantissa := n, scale := 0, mantissa_lt := h, scale_le := Nat.zero_le 28 }

instance : Inhabited Decimal := ⟨whole 0⟩

/-- The decimal with these parts, unless one of them is out of range. -/
def ofParts? (negative : Bool) (mantissa scale : Nat) : Option Decimal :=
  if h : mantissa < mantissaLimit ∧ scale ≤ 28 then
    some { negative, mantissa, scale, mantissa_lt := h.1, scale_le := h.2 }
  else
    none

def ofInt? (n : Int) : Option Decimal :=
  ofParts? (decide (n < 0)) n.natAbs 0

/-- The fraction `± num / den` rounded half to even at the largest scale, from `scale` down, at
which the rounded mantissa fits; nothing when even its whole part does not fit. -/
def ofRatio? (negative : Bool) (num den : Nat) : Nat → Option Decimal
  | 0 => ofParts? negative (roundHalfEven num den) 0
  | scale + 1 =>
    match ofParts? negative (roundHalfEven (num * tenTo (scale + 1)) den) (scale + 1) with
    | some decimal => some decimal
    | none => ofRatio? negative num den scale

/-- The product, at the sum of the scales unless that is too fine. -/
def mul? (a b : Decimal) : Option Decimal :=
  ofRatio? (a.negative != b.negative) (a.mantissa * b.mantissa) (tenTo (a.scale + b.scale))
    (min maxScale (a.scale + b.scale))

/-- The quotient by a nonzero decimal, at the finest scale that fits. -/
def div? (a b : Decimal) : Option Decimal :=
  ofRatio? (a.negative != b.negative) (a.mantissa * tenTo b.scale) (b.mantissa * tenTo a.scale)
    maxScale

/-- The whole part, without the digits after the point. -/
def trunc (a : Decimal) : Int :=
  let whole : Nat := a.mantissa / tenTo a.scale
  if a.negative then -(whole : Int) else whole

/-- Written in full, with as many digits after the point as the scale says. -/
def toText (a : Decimal) : String :=
  String.ofList (plainDecimal a.negative a.mantissa a.scale)

instance : ToString Decimal := ⟨toText⟩

end Decimal
end ExpenseLedger
