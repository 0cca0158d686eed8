import RegisterMachine.Number
import RegisterMachine.Value

/-!
# The families of built-in instructions

Each family is given by what it computes on words.  Integers wrap around at 64 bits, division rounds
toward zero, and a shift takes its amount modulo 64; floating-point arithmetic is that of binary64.
-/

namespace RegisterMachine

inductive IntFold where
  | add | sub | mul | div | mod | min | max | and | or | xor | shl | shr
deriving DecidableEq

namespace IntFold

/-- One step of the fold.  Division by zero has no result. -/
def step : IntFold → Int64 → Int64 → Option Int64
  | add, a, b => some (a + b)
  | sub, a, b => some (a - b)
  | mul, a, b => some (a * b)
  | div, a, b => if b = 0 then none else some (a / b)
  | mod, a, b => if b = 0 then none else some (a % b)
  | min, a, b => some (if b < a then b else a)
  | max, a, b => some (if a < b then b else a)
  | and, a, b => some (a &&& b)
  | or, a, b => some (a ||| b)
  | xor, a, b => some (a ^^^ b)
  | shl, a, b => some (a <<< b)
  | shr, a, b => some (a >>> b)

end IntFold

inductive FloatFold where
  | add | sub | mul | div | min | max
deriving DecidableEq

namespace FloatFold

def step : FloatFold → Float → Float → Float
  | add, a, b => a + b
  | sub, a, b => a - b
  | mul, a, b => a * b
  | div, a, b => a / b
  | min, a, b => Number.min a b
  | max, a, b => Number.max a b

end FloatFold

inductive Fold where
  | int (op : IntFold)
  | float (op : FloatFold)
deriving DecidableEq

namespace Fold

def kind : Fold → Kind
  | int _ => .int
  | float _ => .float

/-- One step of the fold; `none` where it has no result. -/
def step : (op : Fold) → op.kind.Word → op.kind.Word → Option op.kind.Word
  | int op => op.step
  | float op => fun a b => some (op.step a b)

end Fold

inductive Relation where
  | eq | ne | lt | le | gt | ge
deriving DecidableEq

namespace Relation

def onInts : Relation → Int64 → Int64 → Bool
  | eq, a, b => a == b
  | ne, a, b => a != b
  | lt, a, b => a < b
  | le, a, b => a ≤ b
  | gt, a, b => b < a
  | ge, a, b => b ≤ a

/-- An undefined number is unequal to every number and in no order with any. -/
def onFloats : Relation → Float → Float → Bool
  | eq, a, b => a == b
  | ne, a, b => a != b
  | lt, a, b => a < b
  | le, a, b => a ≤ b
  | gt, a, b => b < a
  | ge, a, b => b ≤ a

def holds (r : Relation) : (k : Kind) → k.Word → k.Word → Bool
  | .int => r.onInts
  | .float => r.onFloats

end Relation

inductive Transfer where
  | move (kind : Kind)
  | intToFloat
  | floatToInt
deriving DecidableEq

namespace Transfer

def source : Transfer → Kind
  | move k => k
  | intToFloat => .int
  | floatToInt => .float

def target : Transfer → Kind
  | move k => k
  | intToFloat => .float
  | floatToInt => .int

/-- An integer becomes the nearest number, and a number is truncated. -/
def convert : (t : Transfer) → t.source.Word → t.target.Word
  | move _ => id
  | intToFloat => fun w => Float.ofInt (Int64.toInt w)
  | floatToInt => Number.truncate

end Transfer

inductive Unary where
  | neg | abs
deriving DecidableEq

namespace Unary

def apply : Unary → (k : Kind) → k.Word → k.Word
  | neg, .int => Int64.neg
  | neg, .float => Float.neg
  | abs, .int => Int64.abs
  | abs, .float => Float.abs

end Unary
end RegisterMachine
