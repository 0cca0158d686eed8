import RegisterMachine.Log.Calendar
import RegisterMachine.Log.Level
import RegisterMachine.Text.Line

/-!
# Log entries

An entry is written on a line of its own after a time stamp and its level.  A coloured entry is set
between two sequences of the terminal, which is not part of this library: only the style of each
level is given here.
-/

namespace RegisterMachine
namespace Log

structure Entry where
  level : Level
  message : String
  coloured : Bool
deriving DecidableEq

structure Settings where
  filter : Filter := some .info
  coloured : Bool := false
deriving DecidableEq

/-- The entry that a message makes under the settings, if they show it. -/
def Settings.entries (s : Settings) (level : Level) (message : String) : List Entry :=
  if s.filter.shows level then [⟨level, message, s.coloured⟩] else []

/-- The sequences by which a terminal changes how it shows text. -/
structure Palette where
  /-- What follows is shown in the style. -/
  set : Style → String
  reset : String

def Entry.render (palette : Palette) (stamp : String) (e : Entry) : String :=
  let line := s!"{stamp} [{e.level.name}] {e.message}\n"
  if e.coloured then palette.set e.level.style ++ line ++ palette.reset else line

def paddedNumber (width n : Nat) : String :=
  String.ofList ((Nat.toDigits 10 n).leftpad width '0')

/-- The time stamp of a moment that is given in milliseconds since the beginning of 1970. -/
def stamp (milliseconds : Nat) : String :=
  let seconds := milliseconds / 1000
  let date := Date.ofClockDay (UInt64.ofNat (seconds / 86400))
  let day := s!"{paddedNumber 4 date.shownYear}-{paddedNumber 2 date.month}-{paddedNumber 2 date.day}"
  let hour := paddedNumber 2 (seconds / 3600 % 24)
  let minute := paddedNumber 2 (seconds / 60 % 60)
  let second := paddedNumber 2 (seconds % 60)
  s!"{day} {hour}:{minute}:{second}.{paddedNumber 3 (milliseconds % 1000)}"

end Log
end RegisterMachine
