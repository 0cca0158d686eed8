import RegisterMachine.Text.Hidden

/-!
# Quoted text

A text between quotation marks, on one line and with every character visible.
-/

namespace RegisterMachine
namespace Text

/-- A character as it stands between quotation marks.  One that cannot be seen has a short escape or
gives its code in hexadecimal. -/
def escape (c : Char) : List Char :=
  match c with
  | '\x00' => ['\\', '0']
  | '\t' => ['\\', 't']
  | '\n' => ['\\', 'n']
  | '\r' => ['\\', 'r']
  | '"' => ['\\', '"']
  | '\\' => ['\\', '\\']
  | _ =>
    if isHidden c then "\\u\x7b".toList ++ Nat.toDigits 16 c.toNat ++ "\x7d".toList
    else [c]

def quote (s : String) : String :=
  String.ofList ('"' :: (s.toList.flatMap escape ++ ['"']))

end Text
end RegisterMachine
