import RegisterMachine.Decimal.Basic

/-!
# The shortest decimal that reads back

`exactRatio` gives the exact value of a finite number as a quotient, and `shortest` searches the
grids of one digit, two digits and so on.  On each grid only the two neighbours of the value can
read back when any point of the grid does, so two tests per grid suffice.  The exact value ends the
search, which makes the function total.
-/

namespace RegisterMachine
namespace Decimal

structure Ratio where
  num : Nat
  den : Nat

/-- The weight of the bit in front of the fraction, which is not stored. -/
def hiddenBit : Nat := 0x10000000000000

/-- The exact magnitude of a finite binary number.  Its fields are the eleven bits of the exponent
and the fifty-two of the fraction; an exponent of zero has no hidden bit. -/
def exactRatio (x : Float) : Ratio :=
  let bits := x.toBits.toNat
  let exponent := bits / hiddenBit % 2048
  let fraction := bits % hiddenBit
  if exponent = 0 then ⟨fraction, Nat.pow 2 1074⟩
  else ⟨(hiddenBit + fraction) * Nat.pow 2 (exponent - 1075), Nat.pow 2 (1075 - exponent)⟩

namespace Ratio

def scale (r : Ratio) (e : Int) : Ratio :=
  ⟨r.num * Nat.pow 10 (-e).toNat, r.den * Nat.pow 10 e.toNat⟩

/-- The number of decimal digits in front of the point of a positive ratio, counted as in
`Decimal.point`. -/
def point (r : Ratio) : Int :=
  if r.den ≤ r.num then (Nat.toDigits 10 (r.num / r.den)).length
  else 1 - ((Nat.toDigits 10 ((r.den - 1) / r.num)).length : Int)

/-- The ratio rounded to a natural, a half going to the even neighbour. -/
def roundHalfEven (r : Ratio) : Nat :=
  let q := r.num / r.den
  let rest := r.num % r.den
  if 2 * rest < r.den ∨ (2 * rest = r.den ∧ q % 2 = 0) then q else q + 1

end Ratio

/-- The multiple of `10 ^ e` that reads back as `x` and is nearest to it; of two that are equally
near, the larger.  `r` is the exact value of `x`. -/
def onGrid? (x : Float) (r : Ratio) (e : Int) : Option Decimal :=
  let scaled := r.scale e
  let lower : Decimal := ⟨scaled.num / scaled.den, e⟩
  let upper : Decimal := ⟨scaled.num / scaled.den + 1, e⟩
  let lowerIsNearer := 2 * (scaled.num % scaled.den) < scaled.den
  if lower.toFloat = x ∧ (lowerIsNearer ∨ upper.toFloat ≠ x) then some lower
  else if upper.toFloat = x then some upper
  else none

/-- The decimal with the fewest digits that reads back as the finite positive number `x`, and of
those the nearest.  Seventeen digits always suffice. -/
def shortest (x : Float) : Decimal :=
  let r := exactRatio x
  let grids := (List.range 17).map fun (n : Nat) => r.point - (n + 1)
  (grids.findSome? (onGrid? x r)).getD ⟨r.num * Nat.pow 5 r.den.log2, -(r.den.log2 : Int)⟩

end Decimal
end RegisterMachine
