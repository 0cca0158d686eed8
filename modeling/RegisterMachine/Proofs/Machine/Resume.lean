import RegisterMachine.Proofs.Machine.Run

/-!
# Runs in slices

A host may run a program in slices, each with limits of its own and each begun where the one before
it stopped.  Both the slices and the run without limits are read as plain dispatch, and dispatch of
a list is dispatch of its parts in turn, so the slices change nothing but the reports.
-/

namespace RegisterMachine
namespace Machine

def runSlices (m : Machine) (program : Program) (start : Nat) :
    List Limits → Machine × List Report
  | [] => (m, [])
  | limits :: rest =>
    let slice := m.runFrom program start limits
    let after := slice.1.runSlices program slice.2.next rest
    (after.1, slice.2 :: after.2)

def totalExecuted : List Report → Nat
  | [] => 0
  | r :: rest => r.executed + totalExecuted rest

def resumeIndex (start : Nat) (reports : List Report) : Nat :=
  (reports.getLast?.map Report.next).getD start

@[simp] theorem resumeIndex_cons (start : Nat) (r : Report) (reports : List Report) :
    resumeIndex start (r :: reports) = resumeIndex r.next reports := by
  unfold resumeIndex
  cases reports with
  | nil => rfl
  | cons r' reports => rw [List.getLast?_cons_cons]; rfl

/-- The run `last` ends as the run `whole` does, which has dispatched `count` instructions more. -/
structure Completes (count : Nat) (last whole : Machine × Report) : Prop where
  machine : last.1 = whole.1
  outcome : last.2.outcome = whole.2.outcome
  next : last.2.next = whole.2.next
  executed : count + last.2.executed = whole.2.executed

theorem Completes.trans {a b : Nat} {x y z : Machine × Report} (hxy : Completes a x y)
    (hyz : Completes b y z) : Completes (b + a) x z := by
  refine ⟨hxy.machine.trans hyz.machine, hxy.outcome.trans hyz.outcome, hxy.next.trans hyz.next, ?_⟩
  have hx := hxy.executed
  have hy := hyz.executed
  omega

/-- A run without limits, begun where a slice stopped, ends as if the slice had had no limits. -/
theorem completes_runFrom (m : Machine) (program : Program) (start : Nat) (limits : Limits) :
    Completes (m.runFrom program start limits).2.executed
      ((m.runFrom program start limits).1.runFrom program
        (m.runFrom program start limits).2.next .unlimited)
      (m.runFrom program start .unlimited) := by
  obtain ⟨done, rest, q, outcome, hi, ha, -, hr⟩ := runFrom_spec m program start limits
  obtain ⟨-, hrest, -⟩ := Program.ranges_of_drop_eq hi
  rw [hr]
  obtain ⟨hwm, hwo, hwx, -⟩ := runFrom_unlimited m program start
  obtain ⟨hlm, hlo, hlx, -⟩ := runFrom_unlimited q.machine program (start + done.length)
  -- The whole run dispatches what the slice has dispatched and then what the last run does.
  have hm : q.machine = (m.dispatchAll done).1 := ha.machine_eq
  rw [hi, dispatchAll_append, ← hm, ← hrest] at hwm hwo hwx
  have hcount : (m.dispatchAll done).2.countP (· ≠ .skipped) = done.length := ha.countP_steps
  have hx : done.length +
      (q.machine.runFrom program (start + done.length) .unlimited).2.executed =
        (m.runFrom program start .unlimited).2.executed := by
    rw [hwx, hlx, List.countP_append, hcount]
  refine ⟨hlm.trans hwm.symm, hlo.trans hwo.symm, ?_, hx⟩
  have hwn := (exactRun_runFrom m program start .unlimited).next_eq
  have hln := (exactRun_runFrom q.machine program (start + done.length) .unlimited).next_eq
  rw [hwn, hln, ← hx, Nat.add_assoc]

theorem completes_runSlices (m : Machine) (program : Program) (start : Nat) (ls : List Limits) :
    Completes (totalExecuted (m.runSlices program start ls).2)
      ((m.runSlices program start ls).1.runFrom program
        (resumeIndex start (m.runSlices program start ls).2) .unlimited)
      (m.runFrom program start .unlimited) := by
  induction ls generalizing m start with
  | nil => exact ⟨rfl, rfl, rfl, Nat.zero_add _⟩
  | cons limits rest ih =>
    have hslice := completes_runFrom m program start limits
    have hrest := ih (m.runFrom program start limits).1 (m.runFrom program start limits).2.next
    simp only [runSlices, resumeIndex_cons, totalExecuted]
    exact hrest.trans hslice

/-- A slice that no limit has cut short leaves nothing to do. -/
theorem runFrom_unlimited_of_settled {m : Machine} {program : Program} {start : Nat}
    {limits : Limits} (h : (m.runFrom program start limits).2.outcome ≠ .budgetExhausted) :
    ((m.runFrom program start limits).1.runFrom program
      (m.runFrom program start limits).2.next .unlimited).1 =
        (m.runFrom program start limits).1 := by
  have hx := exactRun_runFrom m program start limits
  by_cases hs : (m.runFrom program start limits).1.status = .running
  · have hend : program.instructions.length ≤ (m.runFrom program start limits).2.next := by
      apply Nat.le_of_not_lt
      exact fun hlt => h (hx.budgetExhausted_iff.mpr ⟨hs, hlt⟩)
    rw [(runFrom_unlimited _ program _).1, List.drop_eq_nil_of_le hend]
    rfl
  · exact (runFrom_of_stopped hs program _ .unlimited).1

theorem runSlices_of_settled {m : Machine} {program : Program} {start : Nat} {ls : List Limits}
    {r : Report} (hr : (m.runSlices program start ls).2.getLast? = some r)
    (h : r.outcome ≠ .budgetExhausted) :
    ((m.runSlices program start ls).1.runFrom program r.next .unlimited).1 =
      (m.runSlices program start ls).1 := by
  induction ls generalizing m start with
  | nil => cases hr
  | cons limits rest ih =>
    cases rest with
    | nil =>
      cases hr
      exact runFrom_unlimited_of_settled h
    | cons limits' rest =>
      simp only [runSlices, List.getLast?_cons_cons] at hr
      exact ih hr

/-- Slices followed by a run without limits end in the same machine, with the same outcome and at
the same index as one run without limits, and together they dispatch as many instructions.  If no
limit cut the last slice short, the slices alone have reached that machine. -/
theorem runSlices_complete_run (m : Machine) (program : Program) (start : Nat)
    (ls : List Limits) :
    Completes (totalExecuted (m.runSlices program start ls).2)
        ((m.runSlices program start ls).1.runFrom program
          (resumeIndex start (m.runSlices program start ls).2) .unlimited)
        (m.runFrom program start .unlimited) ∧
      ∀ r, (m.runSlices program start ls).2.getLast? = some r →
        r.outcome ≠ .budgetExhausted →
          (m.runSlices program start ls).1 = (m.runFrom program start .unlimited).1 := by
  have hc := completes_runSlices m program start ls
  refine ⟨hc, fun r hr h => ?_⟩
  have hm := hc.machine
  rw [resumeIndex, hr] at hm
  exact (runSlices_of_settled hr h).symm.trans hm

/-- Three slices, the first cut short by its cost, the second by its steps, and the last halted. -/
theorem runSlices_complete_run_halted :
    let m : Machine := { registers := Bank.ofPoints [("a", .int 1)], operators := .builtins }
    let program : Program :=
      ⟨[], [⟨"ADD", ["a", "5"], none⟩, ⟨"MUL", ["a", "a"], none⟩, ⟨"HALT", [], none⟩,
        ⟨"NOP", [], none⟩]⟩
    let slices : List Limits := [⟨some 2.5, none⟩, ⟨none, some 1⟩, ⟨some 9, some 7⟩]
    (m.runSlices program 0 slices).2.getLast? = some ⟨.halted, 2, 5, 3⟩ ∧
      (m.runSlices program 0 slices).1 = (m.runFrom program 0 .unlimited).1 := by
  intro m program slices
  have hr : (m.runSlices program 0 slices).2.getLast? = some ⟨.halted, 2, 5, 3⟩ := by
    decide +kernel
  exact ⟨hr, (runSlices_complete_run m program 0 slices).2 _ hr (by decide)⟩

end Machine
end RegisterMachine
