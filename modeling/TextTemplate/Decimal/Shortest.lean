import TextTemplate.Decimal.Basic
import TextTemplate.Decimal.Binary64

/-!
# The shortest decimal that reads back

Every decimal in the interval from halfway to the number below to halfway to the number above
reads back as the same binary number; the ends belong to the interval when the mantissa is even.
`Binary64.shortest` selects, among the decimals with the fewest digits in that interval, the one
nearest to the number, and of two that are equally near the one whose last digit is even.  All
arithmetic is exact.
-/

namespace TextTemplate

namespace Binary64

/-- The order of `a * 10 ^ i` and `b * 2 ^ j`. -/
def compareScaled (a : Nat) (i : Int) (b : Nat) (j : Int) : Ordering :=
  compare (a * Nat.pow 10 i.toNat * Nat.pow 2 (-j).toNat)
    (b * Nat.pow 2 j.toNat * Nat.pow 10 (-i).toNat)

/-- Whether a decimal lies among the numbers that round to `x`. -/
def readsBack (x : Binary64) (d : Decimal) : Bool :=
  let low := if x.isNarrowBelow then 4 * x.mantissa - 1 else 4 * x.mantissa - 2
  let high := 4 * x.mantissa + 2
  let inclusive := x.mantissa % 2 = 0
  let fromLow := compareScaled d.coefficient d.exponent low (x.exponent - 2)
  let toHigh := compareScaled d.coefficient d.exponent high (x.exponent - 2)
  (fromLow = .gt ∨ inclusive ∧ fromLow = .eq) ∧ (toHigh = .lt ∨ inclusive ∧ toHigh = .eq)

/-- The greatest multiple of `10 ^ grid` that is not above `x`, in units of `10 ^ grid`. -/
def floorOn (x : Binary64) (grid : Int) : Nat :=
  x.mantissa * Nat.pow 2 x.exponent.toNat * Nat.pow 10 (-grid).toNat /
    (Nat.pow 2 (-x.exponent).toNat * Nat.pow 10 grid.toNat)

/-- The multiple of `10 ^ grid` that is nearest to `x` among those that read back. -/
def nearestOn? (x : Binary64) (grid : Int) : Option Decimal :=
  let n := x.floorOn grid
  let below : Decimal := ⟨n, grid⟩
  let above : Decimal := ⟨n + 1, grid⟩
  match x.readsBack below, x.readsBack above with
  | false, false => none
  | true, false => some below
  | false, true => some above
  | true, true =>
    match compareScaled (2 * n + 1) grid x.mantissa (x.exponent + 1) with
    | .gt => some below
    | .lt => some above
    | .eq => some (if n % 2 = 0 then below else above)

/-- A power of ten that is above `x`, by at most a factor of a thousand. -/
def topGrid (x : Binary64) : Int :=
  Int.fdiv ((x.mantissa.log2 + x.exponent) * 30103) 100000 + 2

/-- The value of `x` written out in full. -/
def exactly (x : Binary64) : Decimal :=
  if 0 ≤ x.exponent then ⟨x.mantissa * Nat.pow 2 x.exponent.toNat, 0⟩
  else ⟨x.mantissa * Nat.pow 5 (-x.exponent).toNat, x.exponent⟩

/-- The shortest decimal that reads back as the absolute value of a finite number.  Ever finer
grids are tried, down to seventeen significant digits, of which one is always fine enough. -/
def shortest (x : Binary64) : Decimal :=
  let found := (List.range 22).findSome? fun (step : Nat) => x.nearestOn? (x.topGrid - step)
  (found.getD x.exactly).reduced

end Binary64

end TextTemplate
