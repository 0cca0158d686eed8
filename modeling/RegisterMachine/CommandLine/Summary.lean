import RegisterMachine.Machine.Run

/-!
# The summary of a run

What the command line prints about a machine after a run: its state, its registers and its cost
profile.
-/

namespace RegisterMachine
namespace CommandLine

def line (s : String) : String :=
  s ++ "\n"

def widest (texts : List String) : Nat :=
  texts.foldl (fun w s => max w s.length) 0

/-- The state, the fault if there is one, and where the run paused if it did. -/
def stateText (m : Machine) (r : Report) : String :=
  let state := line s!"state: {m.status.name}"
  let fault := match m.status.fault? with
    | some f => line s!"fault: {f.cause.label}" ++ line s!"reason: {f.text}"
    | none => ""
  let cost := Decimal.text Decimal.plain r.cost
  let pause :=
    if r.outcome = .budgetExhausted then
      line s!"paused at instruction {r.next} after {r.executed} steps (cost {cost})"
    else ""
  state ++ fault ++ pause

def registersText (b : Bank) : String :=
  match b.points with
  | [] => ""
  | points =>
    let width := widest (points.map Prod.fst)
    let row (p : String × Value) :=
      line s!"  {Text.padRight width p.1}  {Text.padRight 5 p.2.kind.name}  {p.2.text}"
    line "Registers:" ++ String.join (points.map row)

/-- Amounts and percentages have one place. -/
def amountText (x : Float) : String :=
  Decimal.fixedText 1 x

def percentage (amount total : Float) : Float :=
  if 0 < total then amount / total * 100 else 0

/-- One row for each category with a cost, and the total below. -/
def profileText (p : Profile) : String :=
  let total := p.total
  let nameWidth := 2 + widest ("total" :: Category.all.map Category.name)
  let amountWidth := widest (amountText total :: Category.all.map fun c => amountText (p.get c))
  let rule := line (String.ofList (List.replicate (nameWidth + 1 + amountWidth + 2 + 9) '-'))
  let row (name : String) (amount percent : Float) :=
    let share := Text.padLeft 5 (amountText percent)
    let amount := Text.padLeft amountWidth (amountText amount)
    line s!"{Text.padRight nameWidth name} {amount} ({share}%)"
  let spent := Category.all.filter fun c => p.get c != 0
  let rows := spent.map fun c => row c.name (p.get c) (percentage (p.get c) total)
  line "Cost Profile:" ++ rule ++ String.join rows ++ rule ++ row "total" total 100

end CommandLine
end RegisterMachine
