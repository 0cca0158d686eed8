/-!
# Floating-point numbers beside the arithmetic operators

The smaller and larger of two numbers when one may be undefined, and the truncation to a word.
-/

namespace RegisterMachine
namespace Number

/-- The smaller of two numbers, where an undefined number gives way to the other. -/
def min (a b : Float) : Float :=
  if a.isNaN then b else if b.isNaN then a else if b < a then b else a

/-- The larger of two numbers, where an undefined number gives way to the other. -/
def max (a b : Float) : Float :=
  if a.isNaN then b else if b.isNaN then a else if a < b then b else a

/-- The integer part, or the end of the range of a word that is nearest to it; zero for an undefined
number.  The magnitude is clamped twice, first as an unsigned word, which loses nothing since the
signed range is the narrower one. -/
def truncate (x : Float) : Int64 :=
  let magnitude : Int := x.abs.toUInt64.toNat
  Int64.ofIntClamp (if x < 0 then -magnitude else magnitude)

end Number
end RegisterMachine
