import ExpenseLedger.Numeric.IntegerText

/-!
# Decimals without an exponent

One way of writing `digits · 10 ^ -scale` serves rates and double-precision numbers: all digits,
a point in front of the last `scale` of them, at least one digit before the point.
-/

namespace ExpenseLedger

/-- Writes `± digits · 10 ^ -scale` with exactly `scale` digits after the point, and no point
where there are none. -/
def plainDecimal (negative : Bool) (digits scale : Nat) : List Char :=
  let all := atLeastDigits (scale + 1) digits
  let whole := all.take (all.length - scale)
  let part := all.drop (all.length - scale)
  (if negative then ['-'] else []) ++ whole ++ (if scale = 0 then [] else '.' :: part)

end ExpenseLedger
