import RegisterMachine.Number

/-!
# Limits and the cost meter

A run is bounded by the cost it may spend and by the number of instructions it may dispatch.  The
meter refuses a charge that would exceed its limit and then charges nothing.
-/

namespace RegisterMachine

/-- The bounds on one run; `none` is unlimited. -/
structure Limits where
  cost : Option Float := none
  steps : Option Nat := none
deriving DecidableEq

def Limits.unlimited : Limits := {}

structure Meter where
  limit : Option Float
  used : Float
deriving DecidableEq

namespace Meter

/-- A meter on which nothing is spent.  A limit that is negative or undefined allows nothing. -/
def ofLimit (limit : Option Float) : Meter where
  limit := limit.map fun l => if l.isNaN || l < 0 then 0 else l
  used := 0

def remaining (m : Meter) : Option Float :=
  m.limit.map fun l => Number.max (l - m.used) 0

def exceeds (m : Meter) (amount : Float) : Bool :=
  match m.limit with
  | some l => l < m.used + amount
  | none => false

def charge? (m : Meter) (amount : Float) : Option Meter :=
  if m.exceeds amount then none else some { m with used := m.used + amount }

end Meter
end RegisterMachine
