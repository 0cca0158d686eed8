import RegisterMachine.Builtin.Basic
import RegisterMachine.Cost.Meter
import RegisterMachine.Machine.Status
import RegisterMachine.Program.Basic

/-!
# The machine

A machine has a bank of registers, a status, a registry of operators and the profile of the costs it
has run up.  `dispatch` executes one instruction and never fails: a refusal becomes the machine's
fault.
-/

namespace RegisterMachine

structure Machine where
  registers : Bank
  operators : Registry
  limits : Limits := {}
  status : Status := .running
  profile : Profile := {}

inductive Step where
  | executed
  | halted
  | faulted
  | skipped
deriving DecidableEq

namespace Machine

/-- A running machine with the given registers, declared in order. -/
def provision (registers : List (String × Value)) (operators : Registry) (limits : Limits) :
    Except Cause Machine := do
  let bank ← Bank.provision registers
  return { registers := bank, operators := operators, limits := limits }

/-- The operator of an instruction whose number of operands it accepts. -/
def operatorFor (m : Machine) (i : Instruction) : Except Cause Operator := do
  let some op := m.operators.get? i.opcode | .error (.unknownOpcode i.opcode)
  op.arity.check i.opcode i.operands.length
  return op

/-- Runs the operator of an instruction on the registers and says whether it asked to halt.  The
cost is booked before the operator runs and stays booked when it fails. -/
def execute (m : Machine) (i : Instruction) : Machine × Except Cause Bool :=
  match m.operatorFor i with
  | .error cause => (m, .error cause)
  | .ok op =>
    let booked := { m with profile := m.profile.add op.category op.cost }
    match op.run i.operands { registers := m.registers } with
    | .ok _ context => ({ booked with registers := context.registers }, .ok context.halting)
    | .error cause context => ({ booked with registers := context.registers }, .error cause)

def halt (m : Machine) : Machine :=
  { m with status := m.status.halt?.getD m.status }

def fail (m : Machine) (f : Fault) : Machine :=
  { m with status := (m.status.fail? f).getD m.status }

def dispatch (m : Machine) (i : Instruction) : Machine × Step :=
  if m.status.isRunning then
    match m.execute i with
    | (m', .ok false) => (m', .executed)
    | (m', .ok true) => (m'.halt, .halted)
    | (m', .error cause) => (m'.fail ⟨i.opcode, i.line, cause⟩, .faulted)
  else (m, .skipped)

def costOf? (m : Machine) (i : Instruction) : Option Float :=
  (m.operators.get? i.opcode).map Operator.cost

def poke (m : Machine) (name : String) (v : Value) : Except Cause Machine := do
  return { m with registers := ← m.registers.set name v }

/-- Makes the machine run again; its registers and its profile stay. -/
def reset (m : Machine) : Machine :=
  { m with status := .running }

end Machine
end RegisterMachine
