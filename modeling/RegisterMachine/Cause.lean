import RegisterMachine.Literal

/-!
# Causes of refusal

Why an operation is refused, and the sentence that says so.
-/

namespace RegisterMachine

inductive Cause where
  | noSuchRegister (kind : Kind) (name : String)
  | unresolvedOperand (kind : Kind) (token : String)
  | arityMismatch (opcode : String) (min max actual : Nat)
  | unknownOpcode (opcode : String)
  | divisionByZero (register : String)
  | duplicateRegister (name : String)
  | invalidRegisterName (name : String)
  | duplicateOpcode (opcode : String)
  | invalidCost (opcode : String)
  | invalidLiteral (kind : Kind) (token : String)
  | badLine (line : Nat) (problem : String)
deriving DecidableEq

namespace Cause

/-- The name under which a report lists the cause. -/
def label : Cause → String
  | noSuchRegister .. => "NoSuchRegister"
  | unresolvedOperand .. => "UnresolvedOperand"
  | arityMismatch .. => "ArityMismatch"
  | unknownOpcode .. => "UnknownOpcode"
  | divisionByZero .. => "DivisionByZero"
  | duplicateRegister .. => "DuplicateRegister"
  | invalidRegisterName .. => "InvalidRegisterName"
  | duplicateOpcode .. => "DuplicateOpcode"
  | invalidCost .. => "InvalidCost"
  | invalidLiteral .. => "InvalidLiteral"
  | badLine .. => "ParseError"

def message : Cause → String
  | noSuchRegister kind name => s!"no {kind.name} register named `{name}`"
  | unresolvedOperand kind token =>
      s!"cannot resolve operand `{token}` as {kind.name} register or literal"
  | arityMismatch opcode min max actual => s!"{opcode} takes {min}..={max} operands, got {actual}"
  | unknownOpcode opcode => s!"unknown opcode `{opcode}`"
  | divisionByZero register => s!"division by zero while updating `{register}`"
  | duplicateRegister name => s!"register `{name}` is already declared"
  | invalidRegisterName name => s!"invalid register name `{name}`"
  | duplicateOpcode opcode => s!"opcode `{opcode}` is already registered"
  | invalidCost opcode => s!"operator `{opcode}` has an invalid cost"
  | invalidLiteral kind token => s!"`{token}` is not a valid {kind.name} literal"
  | badLine line problem => s!"line {line}: {problem}"

end Cause

def Literal.word (k : Kind) (token : String) : Except Cause k.Word :=
  match Literal.word? k token with
  | some w => .ok w
  | none => .error (.invalidLiteral k token)

def Value.parse (k : Kind) (token : String) : Except Cause Value :=
  (Literal.word k token).map (Value.ofWord k)

end RegisterMachine
