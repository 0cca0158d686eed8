/-!
# Files that cannot be read

A file is read as a whole, and its contents have to spell a text.
-/

namespace RegisterMachine
namespace CommandLine

inductive ReadFailure where
  | notFound
  | notDirectory
  | isDirectory
  | nameTooLong
  | notText
  | system (description : String) (number : Nat)
  deriving DecidableEq

namespace ReadFailure

def message : ReadFailure → String
  | notFound => "No such file or directory (os error 2)"
  | notDirectory => "Not a directory (os error 20)"
  | isDirectory => "Is a directory (os error 21)"
  | nameTooLong => "File name too long (os error 36)"
  | notText => "stream did not contain valid UTF-8"
  | system description number => s!"{description} (os error {number})"

/-- The failure that the system reports under a number. -/
def ofNumber (number : Nat) (description : String) : ReadFailure :=
  match number with
  | 2 => notFound
  | 20 => notDirectory
  | 21 => isDirectory
  | 36 => nameTooLong
  | _ => system description number

end ReadFailure

def decodeContents (contents : ByteArray) : Except ReadFailure String :=
  match String.fromUTF8? contents with
  | some text => .ok text
  | none => .error .notText

end CommandLine
end RegisterMachine
