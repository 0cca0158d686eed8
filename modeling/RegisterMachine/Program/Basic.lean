import RegisterMachine.Program.Instruction

/-!
# Programs

A program is read line by line.  Each line is blank, declares a register or is an instruction; the
first line that is none of these is refused, whatever follows it.
-/

namespace RegisterMachine

structure Declaration where
  name : String
  initial : Value
  line : Nat
deriving DecidableEq

structure Program where
  declarations : List Declaration := []
  instructions : List Instruction := []
deriving DecidableEq

inductive SourceLine where
  | blank
  | declaration (d : Declaration)
  | instruction (i : Instruction)

namespace Declaration

/-- The declaration with the given directive, written without its dot, and arguments. -/
def parse (line : Nat) (directive : String) (arguments : List String) :
    Except Cause Declaration := do
  let kind ← match directive with
    | "int" => .ok Kind.int
    | "float" => .ok Kind.float
    | _ => .error (Cause.badLine line s!"unknown directive `.{directive}`")
  match arguments with
  | [name] => .ok ⟨name, .zero kind, line⟩
  | [name, token] =>
    match Value.parse kind token with
    | .ok initial => .ok ⟨name, initial, line⟩
    | .error cause => .error (.badLine line cause.message)
  | _ =>
    .error (.badLine line s!".{directive} expects NAME [VALUE], got {arguments.length} tokens")

end Declaration

namespace SourceLine

def parse (number : Nat) (line : List Char) : Except Cause SourceLine :=
  match Text.tokens line with
  | [] => .ok blank
  | first :: rest =>
    match first.toList with
    | '.' :: directive => (Declaration.parse number (String.ofList directive) rest).map declaration
    | _ => (Instruction.parseLine number (String.ofList line)).map fun i => i.elim blank instruction

def declaration? : SourceLine → Option Declaration
  | declaration d => some d
  | _ => none

def instruction? : SourceLine → Option Instruction
  | instruction i => some i
  | _ => none

end SourceLine

namespace Program

/-- Reads a program text; its lines are counted from one. -/
def parse (source : String) : Except Cause Program := do
  let lines ← ((Text.lines source.toList).zipIdx 1).mapM fun (line, number) =>
    SourceLine.parse number line
  return ⟨lines.filterMap SourceLine.declaration?, lines.filterMap SourceLine.instruction?⟩

def registers (p : Program) : List (String × Value) :=
  p.declarations.map fun d => (d.name, d.initial)

end Program
end RegisterMachine
