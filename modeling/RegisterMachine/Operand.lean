import RegisterMachine.Bank

/-!
# Operands

A token of an instruction stands for a register or for a literal.  A register name shadows a literal
of the same spelling in both namespaces, so a register of the other kind is refused and never read
as a number.
-/

namespace RegisterMachine

/-- What a token stands for where a word of kind `k` is read. -/
inductive Operand (k : Kind) where
  | register (name : String)
  | literal (word : k.Word)

namespace Operand

def classify (k : Kind) (b : Bank) (token : String) : Except Cause (Operand k) :=
  if b.contains k token then .ok (register token)
  else if b.contains k.other token then .error (.noSuchRegister k token)
  else
    match Literal.word? k token with
    | some w => .ok (literal w)
    | none => .error (.unresolvedOperand k token)

end Operand

namespace Bank

/-- The contents of a register of kind `k` that an instruction is about to write. -/
def destination (b : Bank) (k : Kind) (name : String) : Except Cause k.Word :=
  match b.read? k name with
  | some w => .ok w
  | none => .error (.noSuchRegister k name)

def valueOf {k : Kind} (b : Bank) : Operand k → Except Cause k.Word
  | .register name => b.destination k name
  | .literal w => .ok w

def resolve (b : Bank) (k : Kind) (token : String) : Except Cause k.Word := do
  b.valueOf (← Operand.classify k b token)

/-- The words of all tokens; the leftmost refusal wins. -/
def resolveAll (b : Bank) (k : Kind) (tokens : List String) : Except Cause (List k.Word) :=
  tokens.mapM (b.resolve k)

end Bank
end RegisterMachine
