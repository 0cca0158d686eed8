import RegisterMachine.Cause
import RegisterMachine.Text.Line

/-!
# Instructions as text

A line holds tokens separated by blanks and commas, and everything from the first `#` on is a
comment.  The first token of an instruction is its opcode and the others are its operands.
-/

namespace RegisterMachine

structure Instruction where
  opcode : String
  operands : List String
  /-- The line of the program that the instruction stands on, if it was read from one. -/
  line : Option Nat := none
deriving DecidableEq

namespace Instruction

/-- The written form: blanks after the opcode, commas between the operands. -/
def text (i : Instruction) : String :=
  match i.operands with
  | [] => i.opcode
  | operands => i.opcode ++ " " ++ String.intercalate ", " operands

end Instruction

namespace Text

def isSeparator (c : Char) : Bool :=
  isBlank c || c == ','

/-- The maximal runs of characters that do not separate, up to a comment. -/
def tokens (line : List Char) : List String :=
  (((line.takeWhile (· != '#')).splitOnP isSeparator).filter (· ≠ [])).map String.ofList

end Text

/-- The instruction on a line, if it has any token.  A directive is refused here. -/
def Instruction.parseLine (number : Nat) (line : String) : Except Cause (Option Instruction) :=
  match Text.tokens line.toList with
  | [] => .ok none
  | opcode :: operands =>
    if opcode.toList.head? = some '.' then
      .error (.badLine number s!"directive `{opcode}` where an instruction was expected")
    else .ok (some ⟨opcode, operands, some number⟩)

end RegisterMachine
