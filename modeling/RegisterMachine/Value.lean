import RegisterMachine.Decimal.Format

/-!
# Kinds, words and values

A register holds an integer or a floating-point number.  A kind names the type of its words, so that
an operation on registers is written once for both kinds.
-/

namespace RegisterMachine

inductive Kind where
  | int
  | float
deriving DecidableEq

namespace Kind

def name : Kind → String
  | int => "int"
  | float => "float"

def other : Kind → Kind
  | int => float
  | float => int

/-- What a register of the kind holds.  Integers wrap around at 64 bits. -/
abbrev Word : Kind → Type
  | int => Int64
  | float => Float

instance : (k : Kind) → DecidableEq k.Word
  | int => inferInstanceAs (DecidableEq Int64)
  | float => inferInstanceAs (DecidableEq Float)

/-- What a register holds before it is written. -/
def zero : (k : Kind) → k.Word
  | int => (0 : Int64)
  | float => (0 : Float)

end Kind

inductive Value where
  | int (word : Int64)
  | float (word : Float)
deriving DecidableEq

namespace Value

def kind : Value → Kind
  | int _ => .int
  | float _ => .float

def ofWord : (k : Kind) → k.Word → Value
  | .int, w => int w
  | .float, w => float w

def word? : (k : Kind) → Value → Option k.Word
  | .int, int w => some w
  | .float, float w => some w
  | _, _ => none

def zero (k : Kind) : Value :=
  ofWord k k.zero

/-- The text from which the value is read back. -/
def text : Value → String
  | int w => toString w.toInt
  | float w => Decimal.text Decimal.general w

@[simp] theorem kind_ofWord (k : Kind) (w : k.Word) : (ofWord k w).kind = k := by
  cases k <;> rfl

@[simp] theorem word?_ofWord (k : Kind) (w : k.Word) : word? k (ofWord k w) = some w := by
  cases k <;> rfl

end Value
end RegisterMachine
