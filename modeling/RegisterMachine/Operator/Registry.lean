import RegisterMachine.Operator.Basic
import RegisterMachine.Text.Quoted

/-!
# The registry of operators

Operators are registered in order.  A cost that is negative or not finite is refused, and so is an
opcode that is already taken; the first refusal ends the registration.
-/

namespace RegisterMachine

structure Registry where
  operators : Table Operator := ∅

namespace Registry

def isCost (x : Float) : Bool :=
  x.isFinite && !(x < 0)

def get? (r : Registry) (opcode : String) : Option Operator :=
  r.operators[opcode]?

def contains (r : Registry) (opcode : String) : Bool :=
  r.operators.contains opcode

/-- Adds an operator.  The cost is examined before the opcode. -/
def register (r : Registry) (op : Operator) : Except Cause Registry :=
  if !isCost op.cost then .error (.invalidCost op.opcode)
  else if r.contains op.opcode then .error (.duplicateOpcode op.opcode)
  else .ok ⟨r.operators.insert op.opcode op⟩

def ofList (ops : List Operator) : Except Cause Registry :=
  ops.foldlM register {}

def opcodes (r : Registry) : List String :=
  r.operators.keys

def size (r : Registry) : Nat :=
  r.operators.size

def isEmpty (r : Registry) : Bool :=
  r.operators.isEmpty

def describe (r : Registry) : String :=
  "OperatorSet \x7b opcodes: [" ++ String.intercalate ", " (r.opcodes.map Text.quote) ++ "] \x7d"

end Registry
end RegisterMachine
