import RegisterMachine.Proofs.Machine.Run

/-!
# Two machines in lock step

Two machines run their programs alike if a relation between them survives every pair of
instructions, and if related machines have stopped alike and pay the same.  What the relation says
of the registers is left open: it may tie them under the same names or under others.
-/

namespace RegisterMachine
namespace Machine

/-- The relation holds again after an instruction of the list on the one machine and its image on
the other, and a run cannot tell related machines apart. -/
structure Lockstep (R : Machine → Machine → Prop) (g : Instruction → Instruction)
    (is : List Instruction) : Prop where
  outcome : ∀ {m m' : Machine}, R m m' → m'.status.outcome? = m.status.outcome?
  cost : ∀ {m m' : Machine}, R m m' → ∀ i, m'.costOf? (g i) = m.costOf? i
  dispatch : ∀ {m m' : Machine}, R m m' → ∀ i ∈ is, R (m.dispatch i).1 (m'.dispatch (g i)).1

end Machine

namespace Progress

structure InStep (R : Machine → Machine → Prop) (p p' : Progress) : Prop where
  machine : R p.machine p'.machine
  meter : p'.meter = p.meter
  executed : p'.executed = p.executed
  next : p'.next = p.next

variable {R : Machine → Machine → Prop} {g : Instruction → Instruction} {is : List Instruction}
  {p p' : Progress}

/-- A limit stops both or neither. -/
theorem InStep.advance? (h : InStep R p p') (hl : Machine.Lockstep R g is) (steps : Option Nat)
    {i : Instruction} (hi : i ∈ is) :
    Option.Rel (InStep R) (p.advance? steps i) (p'.advance? steps (g i)) := by
  have hs : p'.outOfSteps steps = p.outOfSteps steps := by
    unfold outOfSteps
    rw [h.executed]
  unfold Progress.advance? step?
  rw [hs, hl.cost h.machine, h.meter, h.executed, h.next]
  cases p.outOfSteps steps with
  | true => exact .none
  | false =>
    cases p.meter.charge? ((p.machine.costOf? i).getD 0) with
    | none => exact .none
    | some meter => exact .some ⟨hl.dispatch h.machine i hi, rfl, rfl, rfl⟩

theorem InStep.run (h : InStep R p p') (hl : Machine.Lockstep R g is) (steps : Option Nat) :
    (p'.run steps (is.map g)).2 = (p.run steps is).2 ∧
      InStep R (p.run steps is).1 (p'.run steps (is.map g)).1 := by
  induction is generalizing p p' with
  | nil =>
    refine ⟨?_, h⟩
    simp only [List.map_nil, Progress.run, hl.outcome h.machine]
  | cons i rest ih =>
    have ho := hl.outcome h.machine
    rw [List.map_cons]
    cases hs : p.machine.status.outcome? with
    | some outcome =>
      rw [run_of_stopped hs, run_of_stopped (ho.trans hs)]
      exact ⟨rfl, h⟩
    | none =>
      have hr := Status.outcome?_eq_none_iff.mp hs
      have hr' := Status.outcome?_eq_none_iff.mp (ho.trans hs)
      have hrest : Machine.Lockstep R g rest :=
        ⟨hl.outcome, hl.cost, fun hm j hj => hl.dispatch hm j (List.mem_cons_of_mem i hj)⟩
      -- Both have paid or neither has, which is all that the relation leaves open.
      have ha := h.advance? hl steps (List.mem_cons_self (a := i))
      generalize hq : p.advance? steps i = q, hq' : p'.advance? steps (g i) = q' at ha
      cases ha with
      | none =>
        rw [run_of_refused hr hq, run_of_refused hr' hq']
        exact ⟨rfl, h⟩
      | some hstep =>
        rw [run_of_paid hr hq, run_of_paid hr' hq']
        exact ih hstep hrest

end Progress

namespace Machine

/-- Runs in lock step report the same and end in related machines. -/
theorem Lockstep.runFrom {R : Machine → Machine → Prop} {g : Instruction → Instruction}
    {m m' : Machine} {program program' : Program} {start : Nat}
    (hl : Lockstep R g (program.instructions.drop start)) (hm : R m m')
    (hp : program'.instructions = program.instructions.map g) (limits : Limits) :
    (m'.runFrom program' start limits).2 = (m.runFrom program start limits).2 ∧
      R (m.runFrom program start limits).1 (m'.runFrom program' start limits).1 := by
  have hbegun : Progress.InStep R (m.begun start limits) (m'.begun start limits) :=
    ⟨hm, rfl, rfl, rfl⟩
  have hdrop : program'.instructions.drop start = (program.instructions.drop start).map g := by
    rw [hp, List.map_drop]
  obtain ⟨ho, hstep⟩ := hbegun.run hl limits.steps
  have hrun (n : Machine) (q : Program) : n.runFrom q start limits =
      let r := (n.begun start limits).run limits.steps (q.instructions.drop start)
      (r.1.machine, ⟨r.2, r.1.executed, r.1.meter.used, r.1.next⟩) := rfl
  rw [hrun, hrun, hdrop]
  refine ⟨?_, hstep.machine⟩
  simp only [ho, hstep.meter, hstep.executed, hstep.next]

end Machine
end RegisterMachine
