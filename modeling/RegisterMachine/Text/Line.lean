import RegisterMachine.Text.Blank

/-!
# Lines, widths and padding

A text is split into lines at line feeds.  A carriage return just in front of a line feed belongs to
the line end, one at the end of the text does not.
-/

namespace RegisterMachine
namespace Text

/-- The lines of a text.  A text that ends in a line feed has no empty last line. -/
def lines : List Char → List (List Char)
  | [] => []
  | '\n' :: cs => [] :: lines cs
  | '\r' :: '\n' :: cs => [] :: lines cs
  | c :: cs =>
    match lines cs with
    | [] => [[c]]
    | l :: ls => (c :: l) :: ls

def byteLength : List Char → Nat
  | [] => 0
  | c :: cs => c.utf8Size + byteLength cs

@[simp] theorem byteLength_append (cs ds : List Char) :
    byteLength (cs ++ ds) = byteLength cs + byteLength ds := by
  induction cs with
  | nil => simp [byteLength]
  | cons c cs ih => simp only [List.cons_append, byteLength, ih, Nat.add_assoc]

def padLeft (width : Nat) (s : String) : String :=
  String.ofList (s.toList.leftpad width ' ')

def padRight (width : Nat) (s : String) : String :=
  String.ofList (s.toList.rightpad width ' ')

end Text
end RegisterMachine
