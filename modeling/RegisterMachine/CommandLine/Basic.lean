import RegisterMachine.CommandLine.ReadFailure
import RegisterMachine.CommandLine.Setting
import RegisterMachine.CommandLine.Summary
import RegisterMachine.Program.Diagnostic

/-!
# The command line

`start` decides from the environment and the arguments alone whether a file has to be read, and
`finish` does the rest once its contents are known.  Neither touches the world: what goes to the two
streams, and the exit code, are returned.  The terminal behind the error stream is a parameter.
-/

namespace RegisterMachine
namespace CommandLine

structure Environment where
  /-- `REGVM_LOG` -/
  log : Option String := none
  /-- `TERM` -/
  term : Option String := none
  /-- `NO_COLOR` -/
  noColour : Option String := none

/-- A terminal for the error stream, which decides from the environment whether it has colour. -/
structure Terminal extends Log.Palette where
  colours : Environment → Bool

/-- What is written to the error stream. -/
inductive Message where
  | entry (e : Log.Entry)
  | text (s : String)

def Message.render (palette : Log.Palette) (stamp : String) : Message → String
  | entry e => e.render palette stamp
  | text s => s

structure Output where
  exit : Nat
  stdout : String := ""
  stderr : List Message := []

def usage (program : String) : String :=
  String.join <| [
    "Register Machine Runner",
    "",
    "USAGE:",
    s!"    {program} <program.rvm> [OPTIONS]",
    "",
    "ARGS:",
    "    <program.rvm>    Program text to execute",
    "",
    "OPTIONS:",
    "    --int NAME[=VALUE]      Declare an int register (default value 0)",
    "    --float NAME[=VALUE]    Declare a float register (default value 0.0)",
    "    --budget COST           Pause before the instruction that would exceed COST",
    "    --max-steps N           Pause after N instructions",
    "    --no-color              Disable colored log output",
    "    -q, --quiet             Print only the final state",
    "    -h, --help              Print this help message",
    "",
    "ENVIRONMENT:",
    "    REGVM_LOG               Log level: debug, info, warn, error, off",
    "",
    "EXAMPLES:",
    "    # Run a program that declares its own registers",
    s!"    {program} blink.rvm",
    "",
    "    # Provide an input register and cap execution",
    s!"    {program} blink.rvm --int ticks=20 --max-steps 1000"].map line

/-- The log as the environment sets it, and a warning if it cannot. -/
def Terminal.logSettings (terminal : Terminal) (env : Environment) :
    Log.Settings × List Message :=
  let default : Log.Settings := { coloured := terminal.colours env }
  match env.log.map Log.Filter.parse with
  | none => (default, [])
  | some (.ok filter) => ({ default with filter := filter }, [])
  | some (.error problem) => (default, (default.entries .warn s!"REGVM_LOG: {problem}").map .entry)

structure Job where
  path : String
  options : Options
  /-- What was written to the error stream so far. -/
  earlier : List Message := []

namespace Job

def logged (job : Job) (level : Log.Level) (message : String) : List Message :=
  job.earlier ++ (job.options.log.entries level message).map .entry

def refused (job : Job) (message : String) : Output where
  exit := 1
  stderr := job.logged .error message

end Job

inductive Request where
  | finished (output : Output)
  | load (job : Job)

def start (program : String) (terminal : Terminal) (env : Environment) (arguments : List String) :
    Request :=
  let (log, warnings) := terminal.logSettings env
  match arguments with
  | [] => .finished { exit := 1, stderr := warnings ++ [.text (usage program)] }
  | path :: rest =>
    if path = "--help" ∨ path = "-h" then
      .finished { exit := 0, stdout := usage program, stderr := warnings }
    else
      let (settings, refusal) := Setting.parseAll rest
      let job : Job := ⟨path, .ofSettings log settings, warnings⟩
      match refusal with
      | none => .load job
      | some (.unexpected argument) =>
        let refused := job.refused (Refusal.unexpected argument).message
        .finished { refused with stderr := refused.stderr ++ [.text (usage program)] }
      | some refusal => .finished (job.refused refusal.message)

/-- What the log says about a run that began on a running machine. -/
def runNotice (program : Program) (limits : Limits) (m : Machine) (r : Report) :
    Option (Log.Level × String) :=
  match r.outcome with
  | .completed => none
  | .halted => program.instructions[r.next - 1]?.map fun i =>
      let place := match i.line with
        | some n => s!" (line {n})"
        | none => ""
      (.info, s!"machine halted by `{i.text}`{place}")
  | .errored => m.status.fault?.map fun f => (.warn, s!"machine fault: {f.text}")
  | .budgetExhausted =>
    let meter : Meter := { Meter.ofLimit limits.cost with used := r.cost }
    let remaining := match meter.remaining with
      | some x => s!"Some({Decimal.text Decimal.general x})"
      | none => "None"
    let cost := Decimal.text Decimal.plain r.cost
    let place := s!"instruction {r.next} after {r.executed} steps"
    some (.debug, s!"run paused at {place}, cost {cost} (remaining {remaining})")

def execute (job : Job) (program : Program) (m : Machine) : Output :=
  let running := job.logged .info
    s!"Running {job.path} ({program.instructions.length} instructions, {m.registers.size} registers)"
  let (after, report) := m.run program
  let notice := match runNotice program m.limits after report with
    | some (level, message) => (job.options.log.entries level message).map .entry
    | none => []
  let details :=
    if job.options.quiet then "" else registersText after.registers ++ profileText after.profile
  { exit := if report.outcome = .errored then 2 else 0
    stdout := stateText after report ++ details
    stderr := running ++ notice }

def finish (job : Job) (contents : Except ReadFailure String) : Output :=
  match contents with
  | .error failure => job.refused s!"Failed to read {job.path}: {failure.message}"
  | .ok source =>
    match Program.parse source with
    | .error cause =>
      { exit := 1, stderr := job.earlier ++ [.text (Diagnostic.render job.path source cause)] }
    | .ok program =>
      let registers := job.options.registers ++ program.registers
      match Machine.provision registers Registry.builtins job.options.limits with
      | .error cause => job.refused cause.message
      | .ok m => execute job program m

/-- The whole program, given the terminal and how files are read. -/
def run (program : String) (terminal : Terminal) (env : Environment) (arguments : List String)
    (read : String → Except ReadFailure String) : Output :=
  match start program terminal env arguments with
  | .finished output => output
  | .load job => finish job (read job.path)

end CommandLine
end RegisterMachine
