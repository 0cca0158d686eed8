import RegisterMachine.Proofs.Builtin.Commit

/-!
# Independent instructions commute

`call` runs one instruction on a bank and gives its answer along with the bank that it leaves.  A
call reads nothing but its operands and writes nothing but the register that the first of them
names.  So where the first operand of neither call is among the operands of the other, each call
finds the same under its operands whether it comes first or second: the answers do not depend on the
order, refusals included, and neither does the bank in the end.
-/

namespace RegisterMachine
namespace Builtin

/-- Runs the instruction on a bank.  The answer is whether it asks to halt, or why it is refused. -/
def call (i : Builtin) (operands : List String) (b : Bank) : Except Cause Bool × Bank :=
  match i.run operands { registers := b } with
  | .ok _ after => (.ok after.halting, after.registers)
  | .error cause after => (.error cause, after.registers)

/-- Neither list names, as its destination, anything that the other list mentions. -/
def Independent (xs ys : List String) : Prop :=
  (∀ target, xs.head? = some target → target ∉ ys) ∧
    ∀ target, ys.head? = some target → target ∉ xs

theorem Independent.symm {xs ys : List String} (h : Independent xs ys) : Independent ys xs :=
  ⟨h.2, h.1⟩

theorem call_eq_plan (i : Builtin) (operands : List String) (b : Bank) :
    i.call operands b =
      match i.plan operands b with
      | .ok effect =>
        let after := effect.apply { registers := b }
        (.ok after.halting, after.registers)
      | .error cause => (.error cause, b) := by
  unfold call
  rw [run_eq_plan]
  cases i.plan operands b with
  | ok effect => rfl
  | error cause => rfl

theorem call_sameBut (i : Builtin) (operands : List String) (b : Bank) :
    Bank.SameBut operands.head? b (i.call operands b).2 := by
  rw [call_eq_plan]
  cases hp : i.plan operands b with
  | ok effect => exact (apply_registers { registers := b } hp).1
  | error cause => exact .refl _ _

/-- Banks that agree on the operands give one answer, and the call leaves them in agreement. -/
theorem call_agree {names : List String} {b b' : Bank} (h : Bank.Agree names b b') (i : Builtin)
    {operands : List String} (ho : operands ⊆ names) :
    (i.call operands b).1 = (i.call operands b').1 ∧
      Bank.Agree names (i.call operands b).2 (i.call operands b').2 := by
  rw [call_eq_plan, call_eq_plan, ← plan_congr h i ho]
  cases i.plan operands b with
  | ok effect => exact ⟨congrArg Except.ok (effect.apply_halting b b'), effect.apply_agree h⟩
  | error cause => exact ⟨rfl, h⟩

section Pair

variable {xs ys : List String}

/-- The operands of a call are not touched by an independent call before it. -/
theorem Independent.agree (h : Independent xs ys) (i : Builtin) (b : Bank) :
    Bank.Agree ys b (i.call xs b).2 :=
  (call_sameBut i xs b).agree h.1

theorem Independent.answer (h : Independent xs ys) (i j : Builtin) (b : Bank) :
    (j.call ys (i.call xs b).2).1 = (j.call ys b).1 :=
  (call_agree (h.agree i b) j (List.Subset.refl ys)).1.symm

/-- Under an operand of `j` the bank holds what `j` alone leaves there, in either order. -/
theorem Independent.read?_eq (h : Independent xs ys) (i j : Builtin) (b : Bank) {name : String}
    (hn : name ∈ ys) (k : Kind) :
    (j.call ys (i.call xs b).2).2.read? k name = (i.call xs (j.call ys b).2).2.read? k name := by
  have hsecond : (j.call ys (i.call xs b).2).2.read? k name = (j.call ys b).2.read? k name :=
    ((call_agree (h.agree i b) j (List.Subset.refl ys)).2 name hn k).symm
  have hfirst : (i.call xs (j.call ys b).2).2.read? k name = (j.call ys b).2.read? k name :=
    (call_sameBut i xs _).contents k name fun e => h.1 name e hn
  rw [hsecond, hfirst]

/-- A register that neither call mentions keeps its contents. -/
theorem call_call_read? (i j : Builtin) (b : Bank) {name : String} (hx : name ∉ xs)
    (hy : name ∉ ys) (k : Kind) :
    (j.call ys (i.call xs b).2).2.read? k name = b.read? k name := by
  have hsecond := (call_sameBut j ys (i.call xs b).2).contents k name
    fun e => hy (List.mem_of_mem_head? e)
  have hfirst := (call_sameBut i xs b).contents k name fun e => hx (List.mem_of_mem_head? e)
  exact hsecond.trans hfirst

end Pair

/-- Two calls whose destinations the other one does not mention may be made in either order: each
has the same answer, an error included, and the bank in the end is the same. -/
theorem call_comm (i j : Builtin) {xs ys : List String} (h : Independent xs ys) (b : Bank) :
    (i.call xs b).1 = (i.call xs (j.call ys b).2).1 ∧
      (j.call ys (i.call xs b).2).1 = (j.call ys b).1 ∧
      (j.call ys (i.call xs b).2).2 = (i.call xs (j.call ys b).2).2 := by
  refine ⟨(h.symm.answer j i b).symm, h.answer i j b, ?_⟩
  refine Bank.eq_of_read? fun k name => ?_
  by_cases hy : name ∈ ys
  · exact h.read?_eq i j b hy k
  · by_cases hx : name ∈ xs
    · exact (h.symm.read?_eq j i b hx k).symm
    · rw [call_call_read? i j b hx hy, call_call_read? j i b hy hx]

/-- A division that is refused and a product that reads the same register. -/
theorem call_comm_division :
    let b := Bank.ofPoints [("a", .int 7), ("b", .int 2), ("c", .int 0)]
    let divide := (fold (.int .div)).call ["a", "5", "c"]
    let multiply := (fold (.int .mul)).call ["b", "c", "9"]
    Independent ["a", "5", "c"] ["b", "c", "9"] ∧
      (divide b).1 = .error (.divisionByZero "a") ∧
      (divide (multiply b).2).1 = .error (.divisionByZero "a") ∧
      (multiply (divide b).2).2 = (divide (multiply b).2).2 := by
  intro b divide multiply
  have h : Independent ["a", "5", "c"] ["b", "c", "9"] := by
    constructor <;> rintro target ⟨⟩ <;> decide
  have hd : (divide b).1 = .error (.divisionByZero "a") := rfl
  have hcomm := call_comm (fold (.int .div)) (fold (.int .mul)) h b
  exact ⟨h, hd, hcomm.1 ▸ hd, hcomm.2.2⟩

end Builtin
end RegisterMachine
