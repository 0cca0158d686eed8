import RegisterMachine.Program.Basic

/-!
# Diagnostics

A refused line is shown below the message, with a mark under each byte of its text.
-/

namespace RegisterMachine
namespace Diagnostic

/-- The line with marks under its text; indentation and width count the bytes of UTF-8. -/
def excerpt (number : Nat) (line : List Char) : String :=
  let shown := Text.trimEndIf (· == '\r') line
  let indent := Text.byteLength shown - Text.byteLength (Text.trimStart shown)
  let width := max (Text.byteLength (Text.trim shown)) 1
  let marks := List.replicate indent ' ' ++ List.replicate width '^'
  s!"  |\n{Text.padLeft 4 (toString number)} | {String.ofList shown}\n  | {String.ofList marks}\n"

def render (file source : String) : Cause → String
  | .badLine number problem =>
    let header := s!"error: {problem}\n --> {file}:{number}\n"
    match (Text.lines source.toList)[number - 1]? with
    | some line => header ++ excerpt number line
    | none => header
  | cause => s!"error: {cause.message}\n"

end Diagnostic
end RegisterMachine
