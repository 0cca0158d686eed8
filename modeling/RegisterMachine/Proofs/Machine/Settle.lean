import RegisterMachine.Proofs.Machine.Budget
import RegisterMachine.Proofs.Machine.Resume

/-!
# Slices that come to an end

A host resumes a run where the slice before has stopped, until something other than a limit ends it.
If the limits of each slice allow any one instruction, a slice that is cut short has dispatched its
first instruction at least, so the instructions that remain become fewer with every slice.
-/

namespace RegisterMachine

/-- The limits allow any one instruction of the program: there is a step to take, and no price alone
is above the allowance.  An unknown opcode costs nothing and needs no condition. -/
structure Limits.AllowOne (limits : Limits) (operators : Registry) (program : Program) : Prop where
  steps : ∀ most, limits.steps = some most → 1 ≤ most
  cost : ∀ l, limits.allowance = some l → ∀ i ∈ program.instructions, ∀ op,
    operators.get? i.opcode = some op → ¬l < 0 + op.cost

theorem Limits.allowance_not_lt_zero {limits : Limits} {l : Float}
    (h : limits.allowance = some l) : ¬l < 0 :=
  Meter.within_ofLimit limits l ((Meter.ofLimit_limit limits).trans h)

theorem Limits.AllowOne.price_within {limits : Limits} {operators : Registry} {program : Program}
    (h : limits.AllowOne operators program) {l : Float} (hl : limits.allowance = some l)
    {i : Instruction} (hi : i ∈ program.instructions) : ¬l < 0 + operators.price i := by
  unfold Registry.price
  cases hop : operators.get? i.opcode with
  | none =>
    have hzero : (0 : Float) + 0 = 0 := by decide +kernel
    show ¬l < 0 + 0
    rw [hzero]
    exact allowance_not_lt_zero hl
  | some op => exact h.cost l hl i hi op hop

namespace Machine

theorem begun_advance?_ne_none {m : Machine} {program : Program} {limits : Limits}
    (h : limits.AllowOne m.operators program) {i : Instruction} (hi : i ∈ program.instructions)
    (start : Nat) : (m.begun start limits).advance? limits.steps i ≠ none := by
  intro hn
  rcases (refused_iff (.refl _) i).mp hn with hs | ⟨l, hl, hlt⟩
  · have hone : 1 ≤ 0 := h.steps 0 hs
    omega
  · exact h.price_within hl hi hlt

/-- A slice that a limit has cut short has dispatched an instruction and has one before it. -/
theorem runFrom_paused {m : Machine} {program : Program} {start : Nat} {limits : Limits}
    (h : limits.AllowOne m.operators program)
    (ho : (m.runFrom program start limits).2.outcome = .budgetExhausted) :
    1 ≤ (m.runFrom program start limits).2.executed ∧
      (m.runFrom program start limits).2.next < program.instructions.length := by
  have hnext := ((exactRun_runFrom m program start limits).budgetExhausted_iff.mp ho).2
  refine ⟨?_, hnext⟩
  obtain ⟨done, rest, q, outcome, hi, ha, he, hr⟩ := runFrom_spec m program start limits
  rw [hr] at ho ⊢
  obtain ⟨-, i, hhead, hrefused⟩ := he.budgetExhausted_iff.mp ho
  cases ha with
  | refl =>
    have hmem : i ∈ program.instructions.drop start := by
      rw [hi]
      exact List.mem_of_head? hhead
    exact absurd hrefused (begun_advance?_ne_none h (List.mem_of_mem_drop hmem) start)
  | @next _ _ _ first tail running paid onward =>
    show 1 ≤ (first :: tail).length
    rw [List.length_cons]
    omega

@[simp] theorem runFrom_operators (m : Machine) (program : Program) (start : Nat)
    (limits : Limits) :
    (m.runFrom program start limits).1.operators = m.operators := by
  simp [(exactRun_runFrom m program start limits).machine_eq]

theorem runSlices_range_succ (m : Machine) (program : Program) (start : Nat) (ls : Nat → Limits)
    (n : Nat) :
    let slice := m.runFrom program start (ls 0)
    (m.runSlices program start ((List.range (n + 1)).map ls)).2 = slice.2 ::
      (slice.1.runSlices program slice.2.next ((List.range n).map fun k => ls (k + 1))).2 := by
  rw [List.range_succ_eq_map, List.map_cons, List.map_map]
  rfl

/-- Slices under limits that allow any one instruction come to an end before there are more of them
than instructions; each one before the last has dispatched an instruction and stops short of the
end of the program. -/
theorem runSlices_settle (m : Machine) (program : Program) (start : Nat) (ls : Nat → Limits)
    (h : ∀ k, (ls k).AllowOne m.operators program) :
    ∃ calls paused last, calls ≤ max 1 (program.instructions.length - start) ∧
      (m.runSlices program start ((List.range calls).map ls)).2 = paused ++ [last] ∧
      last.outcome ≠ .budgetExhausted ∧
      ∀ r ∈ paused, r.outcome = .budgetExhausted ∧ 1 ≤ r.executed ∧
        r.next < program.instructions.length := by
  -- The measure is the number of instructions from the start of the slice on.
  induction hn : program.instructions.length - start using Nat.strongRecOn
    generalizing m start ls with
  | ind n ih =>
    by_cases ho : (m.runFrom program start (ls 0)).2.outcome = .budgetExhausted
    · obtain ⟨hone, hlt⟩ := runFrom_paused (h 0) ho
      have hnext := (exactRun_runFrom m program start (ls 0)).next_eq
      have hrest (k : Nat) :
          (ls (k + 1)).AllowOne (m.runFrom program start (ls 0)).1.operators program := by
        simpa using h (k + 1)
      have hfewer : program.instructions.length - (m.runFrom program start (ls 0)).2.next < n := by
        omega
      obtain ⟨calls, paused, last, hcalls, hreports, hlast, hpaused⟩ :=
        ih _ hfewer _ _ (fun k => ls (k + 1)) hrest rfl
      refine ⟨calls + 1, (m.runFrom program start (ls 0)).2 :: paused, last, by omega, ?_, hlast,
        ?_⟩
      · rw [runSlices_range_succ, hreports, List.cons_append]
      · exact List.forall_mem_cons.mpr ⟨⟨ho, hone, hlt⟩, hpaused⟩
    · refine ⟨1, [], (m.runFrom program start (ls 0)).2, Nat.le_max_left 1 n, rfl, ho, ?_⟩
      exact fun r hr => absurd hr List.not_mem_nil

/-- Slices of one step each, on a budget that no price passes; one of the opcodes is unknown. -/
theorem runSlices_settle_single_steps :
    let m : Machine := { registers := Bank.ofPoints [("a", .int 1)], operators := .builtins }
    let program : Program :=
      ⟨[], [⟨"MUL", ["a", "a"], none⟩, ⟨"ADD", ["a", "5"], none⟩, ⟨"JUMP", ["0"], none⟩]⟩
    let ls : Nat → Limits := fun _ => ⟨some 5, some 1⟩
    (∀ k, (ls k).AllowOne m.operators program) ∧
      ∃ calls paused last, calls ≤ 3 ∧
        (m.runSlices program 0 ((List.range calls).map ls)).2 = paused ++ [last] ∧
        last.outcome ≠ .budgetExhausted := by
  intro m program ls
  have hprices : program.instructions.all (fun i =>
      (m.operators.get? i.opcode).all fun op => !decide (5 < 0 + op.cost)) = true := by
    decide +kernel
  have hl : ∀ k, (ls k).AllowOne m.operators program := by
    intro k
    constructor
    · intro most hs
      cases hs
      decide
    · intro l hl i hi op hop
      have ha : (ls k).allowance = some 5 := by decide +kernel
      rw [ha] at hl
      cases hl
      have hprice := List.all_eq_true.mp hprices i hi
      rw [hop] at hprice
      simpa using hprice
  obtain ⟨calls, paused, last, hcalls, hreports, hlast, -⟩ := runSlices_settle m program 0 ls hl
  exact ⟨hl, calls, paused, last, hcalls, hreports, hlast⟩

end Machine
end RegisterMachine
