/-!
# Decimal numbers

A `Decimal` is a natural number times a power of ten.  `Decimal.reduced` moves trailing zeros of
the coefficient into the exponent, which keeps the number.
-/

namespace TextTemplate

/-- The number `coefficient * 10 ^ exponent`. -/
structure Decimal where
  coefficient : Nat
  exponent : Int
deriving DecidableEq, Repr

namespace Decimal

/-- The same number with no trailing zero in its coefficient, unless it is zero. -/
def reduced (d : Decimal) : Decimal :=
  if d.coefficient ≠ 0 ∧ d.coefficient % 10 = 0 then
    reduced ⟨d.coefficient / 10, d.exponent + 1⟩
  else d
termination_by d.coefficient

/-- The digits of the coefficient. -/
def digits (d : Decimal) : List Char := Nat.toDigits 10 d.coefficient

/-- The exponent of the leading digit: `10 ^ e ≤ d < 10 ^ (e + 1)`, unless `d` is zero. -/
def magnitude (d : Decimal) : Int := d.digits.length + d.exponent - 1

end Decimal

end TextTemplate
