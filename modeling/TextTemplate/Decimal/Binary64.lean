/-!
# Binary floating point numbers

A `Binary64` is a double precision number, kept as its 64 bits.  Its value is read off the bits as
`mantissa * 2 ^ exponent`, so that all that is said about it is said about integers.  From the top,
the bits are a sign, eleven bits of exponent and 52 bits of fraction.
-/

namespace TextTemplate

/-- A double precision floating point number. -/
structure Binary64 where
  bits : UInt64
deriving DecidableEq, Repr

namespace Binary64

/-- Whether the sign bit is set, which it also is for `-0.0`. -/
def isNegative (x : Binary64) : Bool := 0x8000000000000000 ≤ x.bits.toNat

/-- The eleven bits of the exponent. -/
def exponentField (x : Binary64) : Nat := x.bits.toNat / 0x10000000000000 % 0x800

/-- The 52 bits of the fraction. -/
def fractionField (x : Binary64) : Nat := x.bits.toNat % 0x10000000000000

/-- Whether the number is neither infinite nor undefined. -/
def isFinite (x : Binary64) : Bool := x.exponentField ≠ 0x7FF

/-- Whether the number is undefined. -/
def isNaN (x : Binary64) : Bool := x.isFinite = false ∧ x.fractionField ≠ 0

/-- The absolute value of a finite number is `mantissa * 2 ^ exponent`. -/
def mantissa (x : Binary64) : Nat :=
  if x.exponentField = 0 then x.fractionField else 0x10000000000000 + x.fractionField

/-- The absolute value of a finite number is `mantissa * 2 ^ exponent`. -/
def exponent (x : Binary64) : Int :=
  if x.exponentField = 0 then -1074 else x.exponentField - 1075

/-- Whether the number below is half as far away as the number above, as it is for a power of
two. -/
def isNarrowBelow (x : Binary64) : Bool := x.fractionField = 0 ∧ 1 < x.exponentField

/-- The mantissa with the sign of the number. -/
def signedMantissa (x : Binary64) : Int :=
  if x.isNegative then -(x.mantissa : Int) else x.mantissa

/-- Whether a finite number is zero. -/
def isZero (x : Binary64) : Bool := x.mantissa = 0

/-- Whether a finite number is the integer `n`. -/
def equalsInt (x : Binary64) (n : Int) : Bool :=
  x.isFinite ∧ x.signedMantissa * Nat.pow 2 x.exponent.toNat = n * Nat.pow 2 (-x.exponent).toNat

/-- Equality of numbers: zeros of both signs are equal, and an undefined number is equal to
none. -/
def equals (x y : Binary64) : Bool :=
  if x.isFinite ∧ y.isFinite then
    x.signedMantissa * Nat.pow 2 (x.exponent + 1074).toNat =
      y.signedMantissa * Nat.pow 2 (y.exponent + 1074).toNat
  else x.isNaN = false ∧ x.bits = y.bits

/-- Where a number stands among all numbers, in the order of pairs; an undefined number stands
nowhere. -/
def rank? (x : Binary64) : Option (Int × Int) :=
  if x.isFinite then some (0, x.signedMantissa * Nat.pow 2 (x.exponent + 1074).toNat)
  else if x.isNaN then none
  else some (if x.isNegative then -1 else 1, 0)

end Binary64

end TextTemplate
