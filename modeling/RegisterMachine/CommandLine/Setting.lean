import RegisterMachine.Cause
import RegisterMachine.Cost.Meter
import RegisterMachine.Log.Entry

/-!
# Settings on the command line

The arguments after the program are groups of one or two: switches, and flags with the value that
follows them whatever it looks like.  Reading stops at the first group that is not accepted and
keeps the settings before it, since those already govern how the refusal is shown.
-/

namespace RegisterMachine

/-- Reads `NAME` or `NAME=VALUE`.  The value is examined before the name, which only must not be
empty. -/
def Value.parseSpec (kind : Kind) (spec : String) : Except Cause (String × Value) := do
  let cs := spec.toList
  let name := String.ofList (cs.takeWhile (· != '='))
  let value ← match cs.dropWhile (· != '=') with
    | [] => .ok (Value.zero kind)
    | _ :: token => Value.parse kind (String.ofList token)
  if name = "" then .error (.invalidRegisterName name) else .ok (name, value)

namespace CommandLine

inductive Setting where
  | register (name : String) (value : Value)
  | budget (cost : Float)
  | maxSteps (count : Nat)
  | noColour
  | quiet

/-- The flags that take a value. -/
inductive Flag where
  | register (kind : Kind)
  | budget
  | maxSteps

inductive Refusal where
  | missingValue (flag : String)
  | badRegister (flag : String) (cause : Cause)
  | badBudget (value : String)
  | badSteps (value : String)
  | unexpected (argument : String)

namespace Refusal

def message : Refusal → String
  | missingValue flag => s!"{flag} requires an argument"
  | badRegister flag cause => s!"{flag}: {cause.message}"
  | badBudget value => s!"Invalid budget: '{value}' is not a non-negative number"
  | badSteps value => s!"Invalid step count: '{value}' is not a valid number"
  | unexpected argument => s!"Unexpected argument: {argument}\n"

end Refusal

namespace Flag

def text : Flag → String
  | register .int => "--int"
  | register .float => "--float"
  | budget => "--budget"
  | maxSteps => "--max-steps"

def ofText? : String → Option Flag
  | "--int" => some (register .int)
  | "--float" => some (register .float)
  | "--budget" => some budget
  | "--max-steps" => some maxSteps
  | _ => none

def setting (flag : Flag) (value : String) : Except Refusal Setting :=
  match flag with
  | register kind =>
    match Value.parseSpec kind value with
    | .ok (name, v) => .ok (.register name v)
    | .error cause => .error (.badRegister flag.text cause)
  | budget =>
    match Literal.float? value.toList with
    | some x => if x.isFinite && 0 ≤ x then .ok (.budget x) else .error (.badBudget value)
    | none => .error (.badBudget value)
  | maxSteps =>
    match Literal.count? value with
    | some n => .ok (.maxSteps n)
    | none => .error (.badSteps value)

end Flag

namespace Setting

def cons (s : Setting) (read : List Setting × Option Refusal) : List Setting × Option Refusal :=
  (s :: read.1, read.2)

def ofSwitch? : String → Option Setting
  | "--no-color" => some noColour
  | "--quiet" => some quiet
  | "-q" => some quiet
  | _ => none

/-- The settings that the arguments make up to the first refusal. -/
def parseAll : List String → List Setting × Option Refusal
  | [] => ([], none)
  | argument :: rest =>
    match ofSwitch? argument with
    | some s => cons s (parseAll rest)
    | none =>
      match Flag.ofText? argument, rest with
      | none, _ => ([], some (.unexpected argument))
      | some _, [] => ([], some (.missingValue argument))
      | some flag, value :: rest' =>
        match flag.setting value with
        | .error refusal => ([], some refusal)
        | .ok s => cons s (parseAll rest')

end Setting

structure Options where
  /-- The registers in the order given. -/
  registers : List (String × Value) := []
  limits : Limits := {}
  quiet : Bool := false
  log : Log.Settings

namespace Options

/-- A later limit replaces an earlier one.  Quiet output also raises the log to warnings. -/
def apply (o : Options) : Setting → Options
  | .register name value => { o with registers := o.registers ++ [(name, value)] }
  | .budget cost => { o with limits := { o.limits with cost := some cost } }
  | .maxSteps count => { o with limits := { o.limits with steps := some count } }
  | .noColour => { o with log := { o.log with coloured := false } }
  | .quiet => { o with quiet := true, log := { o.log with filter := some .warn } }

def ofSettings (log : Log.Settings) (settings : List Setting) : Options :=
  settings.foldl apply { log := log }

end Options
end CommandLine
end RegisterMachine
