import RegisterMachine.Proofs.Builtin.Commit
import RegisterMachine.Proofs.Machine.Lockstep

/-!
# Runs are local

An instruction of the built-in set looks at the registers through its operands and in no other way.
Two machines that agree under the operands of a program therefore run it alike, whatever else is in
their banks.  `Twins` is the relation that a run keeps between the two: it survives the plan of an
instruction and its dispatch, so the two go in lock step.  That nothing else is written is the frame
of one instruction, carried along the run.
-/

namespace RegisterMachine
namespace Machine

/-- Two machines with the built-in operators that differ at most in registers outside `names`. -/
structure Twins (names : List String) (m m' : Machine) : Prop where
  builtins : m.operators = .builtins
  operators : m'.operators = m.operators
  status : m'.status = m.status
  profile : m'.profile = m.profile
  registers : Bank.Agree names m.registers m'.registers

namespace Twins

variable {names : List String} {m m' : Machine}

theorem execute (h : Twins names m m') {i : Instruction} (hi : i.operands ⊆ names) :
    (m'.execute i).2 = (m.execute i).2 ∧ Twins names (m.execute i).1 (m'.execute i).1 := by
  have hop : m'.operatorFor i = m.operatorFor i := by
    unfold operatorFor
    rw [h.operators]
  cases ho : m.operatorFor i with
  | error cause =>
    rw [execute_of_refused ho, execute_of_refused (hop.trans ho)]
    exact ⟨rfl, h⟩
  | ok op =>
    obtain ⟨b, rfl⟩ := exists_builtin_of_operatorFor h.builtins ho
    rw [execute_of_operator ho, execute_of_operator (hop.trans ho),
      ← Builtin.plan_congr h.registers b hi, h.profile]
    cases b.plan i.operands m.registers with
    | error cause => exact ⟨rfl, { h with profile := rfl }⟩
    | ok effect =>
      refine ⟨congrArg Except.ok (effect.apply_halting _ _), ?_⟩
      exact { h with profile := rfl, registers := effect.apply_agree h.registers }

theorem halt (h : Twins names m m') : Twins names m.halt m'.halt :=
  { h with status := by simp only [Machine.halt, h.status] }

theorem fail (h : Twins names m m') (f : Fault) : Twins names (m.fail f) (m'.fail f) :=
  { h with status := by simp only [Machine.fail, h.status] }

theorem dispatch (h : Twins names m m') {i : Instruction} (hi : i.operands ⊆ names) :
    Twins names (m.dispatch i).1 (m'.dispatch i).1 := by
  obtain ⟨hr, ht⟩ := h.execute hi
  unfold Machine.dispatch
  rw [h.status]
  cases hs : m.status.isRunning with
  | false => exact h
  | true =>
    generalize m.execute i = x, m'.execute i = x' at hr ht ⊢
    obtain ⟨n, result⟩ := x
    obtain ⟨n', result'⟩ := x'
    obtain rfl : result' = result := hr
    match result' with
    | .ok false => exact ht
    | .ok true => exact Twins.halt ht
    | .error cause => exact Twins.fail ht _

end Twins
end Machine

def Program.tokensFrom (program : Program) (start : Nat) : List String :=
  (program.instructions.drop start).flatMap Instruction.operands

namespace Machine

theorem lockstep_twins {names : List String} {is : List Instruction}
    (hi : ∀ i ∈ is, i.operands ⊆ names) : Lockstep (Twins names) id is where
  outcome h := by rw [h.status]
  cost h i := by
    unfold costOf?
    rw [h.operators]
    rfl
  dispatch h i hmem := h.dispatch (hi i hmem)

theorem Twins.runFrom {names : List String} {m m' : Machine} (h : Twins names m m')
    {program : Program} {start : Nat} (ht : program.tokensFrom start ⊆ names)
    (limits : Limits) :
    (m'.runFrom program start limits).2 = (m.runFrom program start limits).2 ∧
      Twins names (m.runFrom program start limits).1 (m'.runFrom program start limits).1 := by
  have hl : Lockstep (Twins names) id (program.instructions.drop start) :=
    lockstep_twins fun i hm t hx => ht (List.mem_flatMap.mpr ⟨i, hm, hx⟩)
  exact hl.runFrom h (List.map_id _).symm limits

theorem dispatchAll_read? {m : Machine} (hm : m.operators = .builtins) {is : List Instruction}
    {name : String} (hn : name ∉ is.flatMap Instruction.operands) (k : Kind) :
    (m.dispatchAll is).1.registers.read? k name = m.registers.read? k name := by
  induction is generalizing m with
  | nil => rfl
  | cons i rest ih =>
    rw [List.flatMap_cons, List.mem_append, not_or] at hn
    have hi : (m.dispatch i).1.registers.read? k name = m.registers.read? k name := by
      refine (dispatch_sameBut hm i).contents k name fun e => hn.1 ?_
      exact List.mem_of_mem_head? e
    have ho : (m.dispatch i).1.operators = .builtins := by simp [hm]
    exact (ih ho hn.2).trans hi

theorem runFrom_read? {m : Machine} (hm : m.operators = .builtins) (program : Program)
    (start : Nat) (limits : Limits) {name : String} (hn : name ∉ program.tokensFrom start)
    (k : Kind) :
    (m.runFrom program start limits).1.registers.read? k name = m.registers.read? k name := by
  rw [(exactRun_runFrom m program start limits).machine_eq]
  apply dispatchAll_read? hm
  intro ht
  obtain ⟨i, hi, hx⟩ := List.mem_flatMap.mp ht
  exact hn (List.mem_flatMap.mpr ⟨i, List.mem_of_mem_take hi, hx⟩)

/-- Two running machines with the built-in operators whose banks give the same answer to every
operand of the instructions from `start` on run them alike: the reports, the statuses with their
faults and reasonings, and the profiles are the same, and the operands have the same contents at the
end.  No register that is not an operand changes on either machine. -/
theorem runFrom_noninterference {m m' : Machine} (hm : m.operators = .builtins)
    (hm' : m'.operators = .builtins) (hs : m.status = .running) (hs' : m'.status = .running)
    (hp : m'.profile = m.profile) (program : Program) (start : Nat) (limits : Limits)
    (ha : ∀ t ∈ program.tokensFrom start, m.registers.lookup? t = m'.registers.lookup? t) :
    let after := m.runFrom program start limits
    let after' := m'.runFrom program start limits
    after'.2 = after.2 ∧ after'.1.status = after.1.status ∧
      after'.1.status.reasoning? = after.1.status.reasoning? ∧
      after'.1.profile = after.1.profile ∧
      (∀ t ∈ program.tokensFrom start,
        after.1.registers.lookup? t = after'.1.registers.lookup? t) ∧
      ∀ name, name ∉ program.tokensFrom start → ∀ k,
        after.1.registers.read? k name = m.registers.read? k name ∧
          after'.1.registers.read? k name = m'.registers.read? k name := by
  intro after after'
  have hagree : Bank.Agree (program.tokensFrom start) m.registers m'.registers :=
    Bank.agree_of_lookup? ha
  have htwins : Twins (program.tokensFrom start) m m' :=
    ⟨hm, hm'.trans hm.symm, hs'.trans hs.symm, hp, hagree⟩
  obtain ⟨hreport, hafter⟩ := htwins.runFrom (List.Subset.refl _) limits
  refine ⟨hreport, hafter.status, ?_, hafter.profile, fun t ht => hafter.registers.lookup? ht, ?_⟩
  · rw [hafter.status]
  · intro name hn k
    exact ⟨runFrom_read? hm program start limits hn k, runFrom_read? hm' program start limits hn k⟩

/-- A register that the program does not mention has no part in the fault of a division. -/
theorem runFrom_noninterference_division :
    let m : Machine := { registers := Bank.ofPoints [("a", .int 1)], operators := .builtins }
    let m' : Machine :=
      { m with registers := Bank.ofPoints [("a", .int 1), ("b", .float 2.5)] }
    let program : Program := ⟨[], [⟨"ADD", ["a", "7"], some 1⟩, ⟨"DIV", ["a", "0"], some 2⟩]⟩
    (∀ t ∈ program.tokensFrom 0, m.registers.lookup? t = m'.registers.lookup? t) ∧
      (m'.runFrom program 0 .unlimited).2 = (m.runFrom program 0 .unlimited).2 ∧
      (m.runFrom program 0 .unlimited).2.outcome = .errored := by
  intro m m' program
  have ha : ∀ t ∈ program.tokensFrom 0, m.registers.lookup? t = m'.registers.lookup? t := by
    decide +kernel
  have hm' : m'.operators = .builtins := rfl
  have hrun := runFrom_noninterference (m := m) rfl hm' rfl rfl rfl program 0 .unlimited ha
  exact ⟨ha, hrun.1, by decide +kernel⟩

end Machine
end RegisterMachine
