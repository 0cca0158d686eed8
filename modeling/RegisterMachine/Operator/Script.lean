import RegisterMachine.Operand
import RegisterMachine.Operator.Basic

/-!
# Scripted operators

A host adds operators of its own as lists of steps.  The steps run in order, and the first failure
ends the script; what the steps before it wrote stays.
-/

namespace RegisterMachine
namespace Script

inductive Step where
  | halt
  | assign (name : String) (value : Value)
  | fail (cause : Cause)
  /-- Moves the float register named by the first operand into the interval between the other two.
  -/
  | clamp

namespace Step

/-- The first operand's contents, raised to the second operand and then lowered to the third. -/
def clamped (b : Bank) (target low high : String) : Except Cause Float := do
  let v : Float ← b.destination .float target
  let lo : Float ← b.resolve .float low
  let hi : Float ← b.resolve .float high
  let v := if v < lo then lo else v
  return if hi < v then hi else v

def store (name : String) (value : Value) : Action := do
  let context ← get
  match context.registers.set name value with
  | .ok b => set { context with registers := b }
  | .error cause => throw cause

def run (operands : List String) : Step → Action
  | halt => modify fun context => { context with halting := true }
  | assign name value => store name value
  | fail cause => throw cause
  | clamp => do
      match operands with
      | target :: low :: high :: _ =>
          match clamped (← get).registers target low high with
          | .ok v => store target (.float v)
          | .error cause => throw cause
      | _ => throw ((Arity.exactly 3).mismatch "clamp" operands.length)

end Step

def run (steps : List Step) (operands : List String) : Action :=
  steps.forM (Step.run operands)

end Script
end RegisterMachine
