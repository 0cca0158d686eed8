import RegisterMachine.CommandLine.Basic
import Std.Time.DateTime.Timestamp

/-!
# The executable

Reads the environment, the arguments and the program file, and writes what `CommandLine` returns to
a terminal of the usual kind.
-/

namespace RegisterMachine
namespace CommandLine

def programName : String := "regvm"

/-- The number of a system error, which some calls report negated. -/
def errorNumber (code : UInt32) : Nat :=
  min code.toNat (0x100000000 - code.toNat)

def ReadFailure.ofError : IO.Error → ReadFailure
  | .noFileOrDirectory _ code details
  | .inappropriateType _ code details
  | .permissionDenied _ code details
  | .invalidArgument _ code details
  | .resourceExhausted _ code details
  | .hardwareFault code details
  | .otherError code details => .ofNumber (errorNumber code) details
  | e => .system e.toString 0

def readSource (path : String) : IO (Except ReadFailure String) := do
  try
    return decodeContents (← IO.FS.readBinFile path)
  catch e => return .error (.ofError e)

def environment : IO Environment := do
  return {
    log := ← IO.getEnv "REGVM_LOG"
    term := ← IO.getEnv "TERM"
    noColour := ← IO.getEnv "NO_COLOR" }

/-- A terminal with the usual escape sequences.  Colour needs a terminal that is not dumb and no
objection to colour. -/
def terminal : Terminal where
  set style :=
    let colour := match style.foreground with
      | none => ""
      | some .cyan => "\x1b[36m"
      | some .yellow => "\x1b[33m"
      | some .red => "\x1b[31m"
    "\x1b[0m" ++ (if style.bold then "\x1b[1m" else "") ++
      (if style.dimmed then "\x1b[2m" else "") ++ colour
  reset := "\x1b[0m"
  colours env := env.noColour.isNone && env.term.any (· != "dumb")

/-- Writes both streams; every log entry bears the time at which it is written. -/
def emit (output : Output) : IO UInt32 := do
  for message in output.stderr do
    let now ← Std.Time.Timestamp.now
    let stamp := Log.stamp now.toMillisecondsSinceUnixEpoch.val.toNat
    IO.eprint (message.render terminal.toPalette stamp)
  IO.print output.stdout
  return output.exit.toUInt32

end CommandLine
end RegisterMachine

open RegisterMachine CommandLine in
def main (arguments : List String) : IO UInt32 := do
  match start programName terminal (← environment) arguments with
  | .finished output => emit output
  | .load job => emit (finish job (← readSource job.path))
