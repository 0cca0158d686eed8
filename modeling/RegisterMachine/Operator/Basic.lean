import RegisterMachine.Bank
import RegisterMachine.Cost.Profile

/-!
# Operators

An operator is one unit of instruction behaviour: an opcode, the number of operands it takes, a
cost, a category and an action on the registers.  An action that fails keeps what it had done before
the failure.
-/

namespace RegisterMachine

/-- Inclusive bounds on a number of operands. -/
structure Arity where
  min : Nat
  max : Nat
deriving DecidableEq

namespace Arity

def exactly (n : Nat) : Arity := ⟨n, n⟩

def accepts (a : Arity) (count : Nat) : Bool :=
  a.min ≤ count && count ≤ a.max

def mismatch (a : Arity) (opcode : String) (actual : Nat) : Cause :=
  .arityMismatch opcode a.min a.max actual

def check (a : Arity) (opcode : String) (actual : Nat) : Except Cause Unit :=
  if a.accepts actual then .ok () else .error (a.mismatch opcode actual)

end Arity

/-- What an operator acts on: the registers, and the wish that the machine halts after the
instruction. -/
structure Context where
  registers : Bank
  halting : Bool := false

/-- Acts on the context and may fail.  The context at the moment of failure stays. -/
abbrev Action : Type :=
  EStateM Cause Context Unit

structure Operator where
  opcode : String
  arity : Arity
  cost : Float
  category : Category := .extension
  /-- The action on given operands.  Their number is checked before. -/
  run : List String → Action

end RegisterMachine
