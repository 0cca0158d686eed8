import RegisterMachine.Decimal.Shortest

/-!
# How binary numbers are written

`Style` holds the decisions of a format: what follows a whole number, and which positions of the
decimal point are written without an exponent.  `general` is the format of values and `plain` that
of costs in sentences.  Amounts in tables have a fixed number of places.
-/

namespace RegisterMachine
namespace Decimal

structure Style where
  /-- Follows a number without a fraction. -/
  wholeEnd : List Char
  /-- The positions of the decimal point that are written positionally. -/
  positional : Int → Bool

/-- A whole number ends in `.0`, and an exponent is used below `1e-4` and from `1e16` on. -/
def general : Style where
  wholeEnd := ".0".toList
  positional point := -3 ≤ point ∧ point ≤ 16

/-- A whole number is bare, and no exponent is ever used. -/
def plain : Style where
  wholeEnd := []
  positional _ := true

/-- The digits `ds` with a point after the first `point` of them, padded with zeros on either side.
-/
def positionalText (style : Style) (ds : List Char) (point : Int) : List Char :=
  if point ≤ 0 then "0.".toList ++ List.replicate (-point).toNat '0' ++ ds
  else if ds.length ≤ point then
    ds ++ List.replicate (point.toNat - ds.length) '0' ++ style.wholeEnd
  else ds.take point.toNat ++ '.' :: ds.drop point.toNat

/-- The digits `ds` with a point after the first, then the exponent. -/
def exponentText (ds : List Char) (point : Int) : List Char :=
  let fraction := ds.drop 1
  ds.take 1 ++ (if fraction = [] then [] else '.' :: fraction) ++ 'e' :: (toString (point - 1)).toList

def finiteText (style : Style) (x : Float) : List Char :=
  if x == 0 then '0' :: style.wholeEnd
  else
    let d := shortest x
    if style.positional d.point then positionalText style d.digits d.point
    else exponentText d.digits d.point

def isSigned (x : Float) : Bool :=
  0x8000000000000000 ≤ x.toBits.toNat

/-- The text of `x` when `finite` writes its magnitude.  An undefined number has no sign. -/
def signedText (x : Float) (finite : Float → List Char) : String :=
  if x.isNaN then "NaN"
  else
    let magnitude := if x.isInf then "inf".toList else finite x.abs
    String.ofList (if isSigned x then '-' :: magnitude else magnitude)

/-- The text of `x` in a style: the shortest that reads back. -/
def text (style : Style) (x : Float) : String :=
  signedText x (finiteText style)

/-- The text of `x` with exactly `places` digits after the point, of the exact value, a half going
to the even neighbour. -/
def fixedText (places : Nat) (x : Float) : String :=
  signedText x fun m =>
    let n := ((exactRatio m).scale (-places)).roundHalfEven
    let fraction := (Nat.toDigits 10 (n % Nat.pow 10 places)).leftpad places '0'
    Nat.toDigits 10 (n / Nat.pow 10 places) ++ (if places = 0 then [] else '.' :: fraction)

end Decimal
end RegisterMachine
