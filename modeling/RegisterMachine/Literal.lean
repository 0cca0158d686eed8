import RegisterMachine.Value

/-!
# Literals

An integer is an optional sign and decimal digits within the range of a word.  A floating-point
number is an optional sign followed by digits with an optional point and an optional exponent, or by
one of the words `inf`, `infinity` and `nan` in any case; it is rounded to the nearest number.
-/

namespace RegisterMachine
namespace Literal

/-- Splits off one sign; the first component says whether it was a minus. -/
def splitSign : List Char → Bool × List Char
  | '-' :: cs => (true, cs)
  | '+' :: cs => (false, cs)
  | cs => (false, cs)

/-- The number that one or more digits and nothing else denote. -/
def digits? (cs : List Char) : Option Nat :=
  if cs ≠ [] ∧ cs.all Char.isDigit then some (Nat.ofDigitChars 10 cs 0) else none

def integer? (cs : List Char) : Option Int :=
  match splitSign cs with
  | (true, ds) => (digits? ds).map fun n => -(n : Int)
  | (false, ds) => (digits? ds).map fun n => (n : Int)

def int? (cs : List Char) : Option Int64 := do
  let i ← integer? cs
  if Int64.minValue.toInt ≤ i ∧ i ≤ Int64.maxValue.toInt then some (Int64.ofInt i) else none

/-- Digits with an optional point among or around them, then an optional exponent. -/
def decimal? (cs : List Char) : Option Decimal := do
  let isMark (c : Char) := c == 'e' || c == 'E'
  let mantissa := cs.takeWhile (!isMark ·)
  let whole := mantissa.takeWhile (· != '.')
  let fraction := mantissa.drop (whole.length + 1)
  let coefficient ← digits? (whole ++ fraction)
  let exponent ← match cs.drop mantissa.length with
    | [] => some 0
    | _ :: e => integer? e
  some ⟨coefficient, exponent - fraction.length⟩

def magnitude? (cs : List Char) : Option Float :=
  let word := cs.map Char.toLower
  if word = "inf".toList ∨ word = "infinity".toList then some (1 / 0)
  else if word = "nan".toList then some (0 / 0)
  else (decimal? cs).map Decimal.toFloat

def float? (cs : List Char) : Option Float :=
  match splitSign cs with
  | (true, body) => (magnitude? body).map fun x => -x
  | (false, body) => magnitude? body

def word? : (k : Kind) → String → Option k.Word
  | .int, token => int? token.toList
  | .float, token => float? token.toList

/-- One more than the largest count of steps, which takes 64 bits. -/
def countBound : Nat := 0x10000000000000000

/-- A count of steps: digits after an optional plus. -/
def count? (token : String) : Option Nat := do
  let n ← match token.toList with
    | '+' :: ds => digits? ds
    | ds => digits? ds
  if n < countBound then some n else none

end Literal
end RegisterMachine
