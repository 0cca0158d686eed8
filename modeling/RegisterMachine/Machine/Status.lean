import RegisterMachine.Cause

/-!
# The life of a machine

A machine runs until it halts or a fault stops it.  A stopped machine stays as it is until it is
reset.
-/

namespace RegisterMachine

structure Fault where
  opcode : String
  line : Option Nat
  cause : Cause
deriving DecidableEq

namespace Fault

def text (f : Fault) : String :=
  match f.line with
  | some n => s!"line {n}: {f.opcode}: {f.cause.message}"
  | none => s!"{f.opcode}: {f.cause.message}"

end Fault

inductive Status where
  | running
  | halted
  | errored (fault : Fault)
deriving DecidableEq

namespace Status

def name : Status → String
  | running => "running"
  | halted => "halted"
  | errored _ => "errored"

def isRunning : Status → Bool
  | running => true
  | _ => false

def fault? : Status → Option Fault
  | errored f => some f
  | _ => none

def reasoning? (s : Status) : Option String :=
  s.fault?.map Fault.text

def fail? : Status → Fault → Option Status
  | running, f => some (errored f)
  | _, _ => none

def halt? : Status → Option Status
  | running => some halted
  | _ => none

end Status
end RegisterMachine
