import RegisterMachine.Builtin.Family
import RegisterMachine.Operand
import RegisterMachine.Operator.Registry

/-!
# The built-in instruction set

An instruction is planned before it acts: `plan` checks the destination, resolves the operands from
left to right and computes, and only a plan without refusal is committed.  The commit checks the
destination once more.  A built-in instruction that fails leaves the registers as they were.
-/

namespace RegisterMachine

inductive Builtin where
  /-- Folds the operands into the destination. -/
  | fold (op : Fold)
  /-- Sets an integer destination to one or zero as two operands compare. -/
  | compare (kind : Kind) (relation : Relation)
  | transfer (t : Transfer)
  | unary (kind : Kind) (op : Unary)
  | nop
  | halt
deriving DecidableEq

namespace Builtin

def opcode : Builtin → String
  | fold (.int .add) => "ADD"
  | fold (.int .sub) => "SUB"
  | fold (.int .mul) => "MUL"
  | fold (.int .div) => "DIV"
  | fold (.int .mod) => "MOD"
  | fold (.int .min) => "MIN"
  | fold (.int .max) => "MAX"
  | fold (.int .and) => "AND"
  | fold (.int .or) => "OR"
  | fold (.int .xor) => "XOR"
  | fold (.int .shl) => "SHL"
  | fold (.int .shr) => "SHR"
  | fold (.float .add) => "FADD"
  | fold (.float .sub) => "FSUB"
  | fold (.float .mul) => "FMUL"
  | fold (.float .div) => "FDIV"
  | fold (.float .min) => "FMIN"
  | fold (.float .max) => "FMAX"
  | compare .int .eq => "EQ"
  | compare .int .ne => "NE"
  | compare .int .lt => "LT"
  | compare .int .le => "LE"
  | compare .int .gt => "GT"
  | compare .int .ge => "GE"
  | compare .float .eq => "FEQ"
  | compare .float .ne => "FNE"
  | compare .float .lt => "FLT"
  | compare .float .le => "FLE"
  | compare .float .gt => "FGT"
  | compare .float .ge => "FGE"
  | transfer (.move .int) => "MOV"
  | transfer (.move .float) => "FMOV"
  | transfer .intToFloat => "ITOF"
  | transfer .floatToInt => "FTOI"
  | unary .int .neg => "NEG"
  | unary .int .abs => "ABS"
  | unary .float .neg => "FNEG"
  | unary .float .abs => "FABS"
  | nop => "NOP"
  | halt => "HALT"

def all : List Builtin :=
  [.add, .sub, .mul, .div, .mod, .min, .max, .and, .or, .xor, .shl, .shr].map (fold ∘ .int) ++
  [.add, .sub, .mul, .div, .min, .max].map (fold ∘ .float) ++
  [.eq, .ne, .lt, .le, .gt, .ge].map (compare .int) ++
  [.eq, .ne, .lt, .le, .gt, .ge].map (compare .float) ++
  [.move .int, .move .float, .intToFloat, .floatToInt].map transfer ++
  [unary .int .neg, unary .int .abs, unary .float .neg, unary .float .abs, nop, halt]

/-- The largest number of tokens of a folding instruction, the destination included. -/
def maxOperands : Nat := 16

def arity : Builtin → Arity
  | fold _ => ⟨2, maxOperands⟩
  | compare .. => .exactly 3
  | transfer _ => .exactly 2
  | unary .. => .exactly 1
  | nop => .exactly 0
  | halt => .exactly 0

def category : Builtin → Category
  | fold (.int .and) => .bitwise
  | fold (.int .or) => .bitwise
  | fold (.int .xor) => .bitwise
  | fold (.int .shl) => .bitwise
  | fold (.int .shr) => .bitwise
  | fold _ => .arithmetic
  | compare .. => .comparison
  | transfer _ => .transfer
  | unary .. => .arithmetic
  | nop => .control
  | halt => .control

def cost : Builtin → Float
  | fold (.int .mul) => 5
  | fold (.int .div) => 10
  | fold (.int .mod) => 10
  | fold (.int .and) => 2
  | fold (.int .or) => 2
  | fold (.int .xor) => 2
  | fold (.int _) => 3
  | fold (.float .mul) => 6
  | fold (.float .div) => 12
  | fold (.float _) => 4
  | compare .int _ => 3
  | compare .float _ => 4
  | transfer (.move _) => 1
  | transfer _ => 2
  | unary .. => 2
  | nop => 1
  | halt => 0

/-- What an instruction does once all its checks have passed. -/
inductive Effect where
  | idle
  | halt
  | store (name : String) (value : Value)

namespace Effect

def commit : Effect → Context → Except Cause Context
  | idle, context => .ok context
  | halt, context => .ok { context with halting := true }
  | store name value, context => do
    return { context with registers := ← context.registers.set name value }

end Effect

def planFold (op : Fold) (b : Bank) (target : String) (tokens : List String) :
    Except Cause Effect := do
  let seed ← b.destination op.kind target
  let words ← b.resolveAll op.kind tokens
  match words.foldlM op.step seed with
  | some result => .ok (.store target (.ofWord op.kind result))
  | none => .error (.divisionByZero target)

def planCompare (k : Kind) (r : Relation) (b : Bank) (target left right : String) :
    Except Cause Effect := do
  let _ ← b.destination .int target
  let x ← b.resolve k left
  let y ← b.resolve k right
  return .store target (.int (if r.holds k x y then 1 else 0))

def planTransfer (t : Transfer) (b : Bank) (target source : String) : Except Cause Effect := do
  let _ ← b.destination t.target target
  let w ← b.resolve t.source source
  return .store target (.ofWord t.target (t.convert w))

def planUnary (k : Kind) (op : Unary) (b : Bank) (target : String) : Except Cause Effect := do
  let w ← b.destination k target
  return .store target (.ofWord k (op.apply k w))

/-- The cases of the instruction, with `otherwise` for operands that fit none of them. -/
def body (i : Builtin) (operands : List String) (b : Bank) (otherwise : Except Cause Effect) :
    Except Cause Effect :=
  match i, operands with
  | fold op, target :: tokens => planFold op b target tokens
  | compare k r, [target, left, right] => planCompare k r b target left right
  | transfer t, [target, source] => planTransfer t b target source
  | unary k op, [target] => planUnary k op b target
  | nop, [] => .ok .idle
  | halt, [] => .ok .halt
  | _, _ => otherwise

/-- What the instruction will do with the given operands, or why it is refused. -/
def plan (i : Builtin) (operands : List String) (b : Bank) : Except Cause Effect := do
  i.arity.check i.opcode operands.length
  i.body operands b (.error (i.arity.mismatch i.opcode operands.length))

def run (i : Builtin) (operands : List String) : Action := fun context =>
  match i.plan operands context.registers >>= fun effect => effect.commit context with
  | .ok after => .ok () after
  | .error cause => .error cause context

def operator (i : Builtin) : Operator where
  opcode := i.opcode
  arity := i.arity
  cost := i.cost
  category := i.category
  run := i.run

def operators : List Operator :=
  all.map operator

end Builtin

def Registry.builtins : Registry where
  operators := .ofList (Builtin.operators.map fun op => (op.opcode, op))

end RegisterMachine
