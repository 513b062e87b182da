import TextTemplate.Decimal.Shortest

/-!
# Layouts of floating point numbers

A number is laid out with its digits around a decimal point, or, when it is very large or very
small, with one digit before the point and an exponent.  A `Layout` records what a format decides:
which magnitudes are written plainly, and how an exponent is spelt.  Numbers without a fraction end
in `.0` when they are written plainly.
-/

namespace TextTemplate

/-- The decisions of a number format. -/
structure Layout where
  /-- Numbers from `10 ^ plainFrom` on are written without an exponent. -/
  plainFrom : Int
  /-- Numbers below `10 ^ plainBelow` are written without an exponent. -/
  plainBelow : Int
  /-- The sign of a positive exponent. -/
  positiveSign : List Char
  /-- The least number of digits of an exponent. -/
  exponentWidth : Nat
deriving DecidableEq, Repr

namespace Layout

/-- Digits with a decimal point, where the number lies below `10 ^ point`. -/
def plain (digits : List Char) (point : Int) : List Char :=
  if digits.length ≤ point then
    digits ++ List.replicate (point - digits.length).toNat '0' ++ ['.', '0']
  else if 0 < point then digits.take point.toNat ++ '.' :: digits.drop point.toNat
  else ['0', '.'] ++ List.replicate (-point).toNat '0' ++ digits

/-- The exponent of a number, with its sign. -/
def exponentText (layout : Layout) (exponent : Int) : List Char :=
  let digits := Nat.toDigits 10 exponent.natAbs
  (if exponent < 0 then ['-'] else layout.positiveSign) ++
    List.replicate (layout.exponentWidth - digits.length) '0' ++ digits

/-- One digit before the decimal point, and an exponent. -/
def scientific (layout : Layout) (digits : List Char) (exponent : Int) : List Char :=
  let fraction := digits.drop 1
  digits.take 1 ++ (if fraction.isEmpty then [] else '.' :: fraction) ++
    'e' :: layout.exponentText exponent

/-- The text of a positive decimal number. -/
def positive (layout : Layout) (d : Decimal) : List Char :=
  let d := d.reduced
  if layout.plainFrom ≤ d.magnitude ∧ d.magnitude < layout.plainBelow then
    plain d.digits (d.magnitude + 1)
  else layout.scientific d.digits d.magnitude

/-- The text of a number with a sign; a zero is written `0.0`. -/
def signed (layout : Layout) (isNegative : Bool) (d : Decimal) : List Char :=
  (if isNegative then ['-'] else []) ++
    (if d.coefficient = 0 then ['0', '.', '0'] else layout.positive d)

/-- The text of a finite floating point number: its shortest decimal. -/
def finite (layout : Layout) (x : Binary64) : List Char :=
  layout.signed x.isNegative (if x.isZero then ⟨0, 0⟩ else x.shortest)

end Layout

end TextTemplate
