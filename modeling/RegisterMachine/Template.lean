/-!
# Message templates

A template is a text with named holes in braces, each optionally followed by a colon and a
specification.  Doubled braces stand for themselves.  `pieces` cuts any text, well formed or not,
into literal text and hole openings; the pieces written one after the other are the text again, so
that renaming touches names only.
-/

namespace RegisterMachine
namespace Template

inductive Piece where
  /-- Text that stands for itself. -/
  | text (chars : List Char)
  /-- An opening brace and the name after it. -/
  | hole (name : List Char)
deriving DecidableEq

def Piece.chars : Piece → List Char
  | text cs => cs
  | hole name => '{' :: name

/-- A name runs up to the brace or the colon that ends it, or to the end of the text. -/
def isNameChar (c : Char) : Bool :=
  c != '}' && c != ':'

/-- The pieces of a text.  Doubled braces are taken first, from left to right. -/
def pieces : List Char → List Piece
  | [] => []
  | '{' :: '{' :: cs => .text ['{', '{'] :: pieces cs
  | '}' :: '}' :: cs => .text ['}', '}'] :: pieces cs
  | '{' :: cs => .hole (cs.takeWhile isNameChar) :: pieces (cs.dropWhile isNameChar)
  | c :: cs => .text [c] :: pieces cs
termination_by cs => cs.length
decreasing_by
  all_goals simp only [List.length_cons]
  all_goals first | omega | exact Nat.lt_succ_of_le (List.dropWhile_sublist _).length_le

/-- The pieces spell the text. -/
@[simp] theorem flatMap_chars_pieces (cs : List Char) : (pieces cs).flatMap Piece.chars = cs := by
  fun_induction pieces cs with
  | case1 => rfl
  | case2 cs ih => simp [Piece.chars, ih]
  | case3 cs ih => simp [Piece.chars, ih]
  | case4 cs _ ih => simp [Piece.chars, ih, List.takeWhile_append_dropWhile]
  | case5 c cs _ _ _ ih => simp [Piece.chars, ih]

/-- The distinct names of the holes that have one, in the order of their first use. -/
def names (template : String) : List String :=
  ((pieces template.toList).filterMap fun
    | .hole (c :: cs) => some (String.ofList (c :: cs))
    | _ => none).eraseDups

/-- Asks for a new name for every hole that has one, from left to right, and writes the template
with the answers; without an answer the name stays. -/
def renameM {m : Type → Type} [Monad m] (rename : String → m (Option String))
    (template : String) : m String := do
  let parts ← (pieces template.toList).mapM fun
    | .hole (c :: cs) => do
        match ← rename (String.ofList (c :: cs)) with
        | some new => return '{' :: new.toList
        | none => return '{' :: c :: cs
    | piece => pure piece.chars
  return String.ofList parts.flatten

def rename (new : String → Option String) (template : String) : String :=
  Id.run (renameM (m := Id) (fun name => pure (new name)) template)

end Template
end RegisterMachine
