import RegisterMachine.Text.Blank

/-!
# Log levels

A level is read in any case and with blanks around it.  A filter is the lowest level that is shown,
or none when the log is off.
-/

namespace RegisterMachine
namespace Log

inductive Level where
  | debug
  | info
  | warn
  | error
deriving DecidableEq

namespace Level

def name : Level → String
  | debug => "DEBUG"
  | info => "INFO"
  | warn => "WARN"
  | error => "ERROR"

def rank : Level → Nat
  | debug => 0
  | info => 1
  | warn => 2
  | error => 3

end Level

inductive Colour where
  | cyan
  | yellow
  | red
deriving DecidableEq

structure Style where
  foreground : Option Colour := none
  bold : Bool := false
  dimmed : Bool := false
deriving DecidableEq

def Level.style : Level → Style
  | debug => { foreground := some .cyan, dimmed := true }
  | info => {}
  | warn => { foreground := some .yellow, bold := true }
  | error => { foreground := some .red, bold := true }

/-- The word that a setting consists of, in lower case.  Only ASCII letters have a lower case here.
-/
def settingWord (setting : String) : String :=
  String.ofList ((Text.trim setting.toList).map Char.toLower)

def unknownLevel (word : String) : String :=
  s!"unknown log level '{word}'"

def Level.parse (setting : String) : Except String Level :=
  match settingWord setting with
  | "debug" => .ok .debug
  | "info" => .ok .info
  | "warn" => .ok .warn
  | "warning" => .ok .warn
  | "error" => .ok .error
  | word => .error (unknownLevel word)

/-- The lowest level that is shown; `none` shows nothing. -/
abbrev Filter : Type := Option Level

namespace Filter

def parse (setting : String) : Except String Filter :=
  match settingWord setting with
  | "off" => .ok none
  | "none" => .ok none
  | word => (Level.parse word).map some

def shows (f : Filter) (level : Level) : Bool :=
  match f with
  | some lowest => lowest.rank ≤ level.rank
  | none => false

end Filter
end Log
end RegisterMachine
