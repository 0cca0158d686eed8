import RegisterMachine.Machine.Basic

/-!
# Runs

A run dispatches the instructions of a program in order until the program ends, the machine stops or
a limit is reached.  Limits are examined before each instruction, so an instruction is either paid
for and dispatched or not started.
-/

namespace RegisterMachine

inductive Outcome where
  | completed
  | halted
  | errored
  | budgetExhausted
deriving DecidableEq

structure Report where
  outcome : Outcome
  /-- The number of dispatched instructions. -/
  executed : Nat
  cost : Float
  /-- The index of the instruction that would be dispatched next. -/
  next : Nat
deriving DecidableEq

/-- The outcome of a run on a machine that has stopped. -/
def Status.outcome? : Status → Option Outcome
  | running => none
  | halted => some .halted
  | errored _ => some .errored

/-- The outcome of a run that a dispatched instruction ends. -/
def Step.outcome? : Step → Option Outcome
  | executed => none
  | halted => some .halted
  | faulted => some .errored
  | skipped => none

/-- A run in progress: the machine, what has been spent, how many instructions were dispatched and
the index of the next one. -/
structure Progress where
  machine : Machine
  meter : Meter
  executed : Nat
  next : Nat

namespace Progress

def outOfSteps (p : Progress) (steps : Option Nat) : Bool :=
  match steps with
  | some most => most ≤ p.executed
  | none => false

/-- Pays for an instruction and dispatches it, unless a limit forbids it.  An unknown opcode costs
nothing. -/
def step? (p : Progress) (steps : Option Nat) (i : Instruction) : Option (Progress × Step) :=
  if p.outOfSteps steps then none
  else
    (p.meter.charge? ((p.machine.costOf? i).getD 0)).map fun meter =>
      let (machine, step) := p.machine.dispatch i
      (⟨machine, meter, p.executed + 1, p.next + 1⟩, step)

/-- Dispatches instructions until the run ends.  The machine is examined before each of them, and
what became of an instruction after it. -/
def run (p : Progress) (steps : Option Nat) : List Instruction → Progress × Outcome
  | [] => (p, p.machine.status.outcome?.getD .completed)
  | i :: rest =>
    match p.machine.status.outcome? with
    | some outcome => (p, outcome)
    | none =>
      match p.step? steps i with
      | none => (p, .budgetExhausted)
      | some (p', step) =>
        match step.outcome? with
        | some outcome => (p', outcome)
        | none => run p' steps rest

end Progress

namespace Machine

def runFrom (m : Machine) (program : Program) (start : Nat) (limits : Limits) : Machine × Report :=
  let begun : Progress := ⟨m, .ofLimit limits.cost, 0, start⟩
  let (p, outcome) := begun.run limits.steps (program.instructions.drop start)
  (p.machine, ⟨outcome, p.executed, p.meter.used, p.next⟩)

def run (m : Machine) (program : Program) : Machine × Report :=
  m.runFrom program 0 m.limits

end Machine
end RegisterMachine
