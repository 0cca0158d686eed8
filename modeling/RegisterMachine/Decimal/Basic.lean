/-!
# Decimal numbers

A decimal is a coefficient and a power of ten.  Reading one as a binary number rounds to the
nearest, and a tie goes to the even mantissa; beyond the largest finite number the result is
infinite.
-/

namespace RegisterMachine

/-- The number `coefficient * 10 ^ exponent`. -/
structure Decimal where
  coefficient : Nat
  exponent : Int
deriving DecidableEq

namespace Decimal

/-- The nearest binary number.  The exponent may be of any size: no power of ten is formed when the
result is certainly zero or infinite. -/
def toFloat (d : Decimal) : Float :=
  Float.ofScientific d.coefficient (d.exponent < 0) d.exponent.natAbs

/-- The digits of the coefficient up to the last one that is not zero; none for zero. -/
def digits (d : Decimal) : List Char :=
  ((Nat.toDigits 10 d.coefficient).reverse.dropWhile (· == '0')).reverse

/-- The number of digits in front of the decimal point.  It is negative when zeros stand between the
point and the first digit. -/
def point (d : Decimal) : Int :=
  (Nat.toDigits 10 d.coefficient).length + d.exponent

end Decimal
end RegisterMachine
