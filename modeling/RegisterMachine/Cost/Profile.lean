/-!
# Cost profiles

The cost that a machine has accumulated, by category of operator.
-/

namespace RegisterMachine

inductive Category where
  | arithmetic
  | bitwise
  | comparison
  | transfer
  | control
  | extension
deriving DecidableEq

namespace Category

def name : Category → String
  | arithmetic => "Arithmetic"
  | bitwise => "Bitwise"
  | comparison => "Comparison"
  | transfer => "Transfer"
  | control => "Control"
  | extension => "Extension"

/-- In the order in which a profile lists and sums them. -/
def all : List Category :=
  [arithmetic, bitwise, comparison, transfer, control, extension]

end Category

structure Profile where
  arithmetic : Float := 0
  bitwise : Float := 0
  comparison : Float := 0
  transfer : Float := 0
  control : Float := 0
  extension : Float := 0
deriving DecidableEq

namespace Profile

def get (p : Profile) : Category → Float
  | .arithmetic => p.arithmetic
  | .bitwise => p.bitwise
  | .comparison => p.comparison
  | .transfer => p.transfer
  | .control => p.control
  | .extension => p.extension

def add (p : Profile) (c : Category) (amount : Float) : Profile :=
  match c with
  | .arithmetic => { p with arithmetic := p.arithmetic + amount }
  | .bitwise => { p with bitwise := p.bitwise + amount }
  | .comparison => { p with comparison := p.comparison + amount }
  | .transfer => { p with transfer := p.transfer + amount }
  | .control => { p with control := p.control + amount }
  | .extension => { p with extension := p.extension + amount }

/-- The sum over all categories, in their order. -/
def total (p : Profile) : Float :=
  (Category.all.map p.get).foldl (· + ·) 0

@[simp] theorem get_add (p : Profile) (c d : Category) (amount : Float) :
    (p.add c amount).get d = if d = c then p.get d + amount else p.get d := by
  cases c <;> cases d <;> rfl

end Profile
end RegisterMachine
