import RegisterMachine.Proofs.Machine.Budget
import RegisterMachine.Proofs.Number

/-!
# Runs under larger limits

Larger limits refuse nothing that smaller ones allow.  So the run under larger limits comes through
the place where the other run ends, with the same machine and the same amount spent, `Looser`, and
goes on only if the other run was cut short.  Nothing is used of the order of numbers but that it is
transitive.
-/

namespace RegisterMachine

namespace Limits

/-- The first bound is no larger than the second; no bound at all is the largest. -/
def BoundLE {α : Type} [LE α] : Option α → Option α → Prop
  | _, none => True
  | none, some _ => False
  | some a, some b => a ≤ b

theorem BoundLE.exists_le {α : Type} [LE α] {x : Option α} {b : α} (h : BoundLE x (some b)) :
    ∃ a, x = some a ∧ a ≤ b := by
  cases x with
  | none => exact h.elim
  | some a => exact ⟨a, rfl, h⟩

/-- Neither limit is larger than that of the other limits, where a cost that is undefined or
negative counts as zero. -/
structure AtMost (limits limits' : Limits) : Prop where
  cost : BoundLE limits.allowance limits'.allowance
  steps : BoundLE limits.steps limits'.steps

end Limits

namespace Progress

open Limits

/-- The same run in progress, under a meter that allows no less. -/
structure Looser (p p' : Progress) : Prop where
  machine : p'.machine = p.machine
  executed : p'.executed = p.executed
  used : p'.meter.used = p.meter.used
  limit : BoundLE p.meter.limit p'.meter.limit

variable {steps steps' : Option Nat} {p p' q : Progress} {i : Instruction}
  {done rest : List Instruction} {outcome : Outcome}

theorem Looser.refused (h : Looser p p') (hs : BoundLE steps steps')
    (hr : p'.advance? steps' i = none) : p.advance? steps i = none := by
  rw [advance?_eq_none_iff] at hr ⊢
  rw [h.machine, h.executed, h.used] at hr
  rcases hr with ⟨most', rfl, hle'⟩ | ⟨l', hl', hlt'⟩
  · obtain ⟨most, rfl, hle⟩ := hs.exists_le
    exact .inl ⟨most, rfl, Nat.le_trans hle hle'⟩
  · have hl := h.limit
    rw [hl'] at hl
    obtain ⟨l, hl, hle⟩ := hl.exists_le
    exact .inr ⟨l, hl, Number.float_lt_of_le_of_lt hle hlt'⟩

theorem Looser.advance? (h : Looser p p') (hs : BoundLE steps steps')
    (hq : p.advance? steps i = some q) : ∃ q', p'.advance? steps' i = some q' ∧ Looser q q' := by
  cases hq' : p'.advance? steps' i with
  | none =>
    rw [h.refused hs hq'] at hq
    cases hq
  | some q' =>
    have paid := advance?_eq_some hq
    have paid' := advance?_eq_some hq'
    have hu := (Meter.charge?_eq_some paid.charged).2
    have hu' := (Meter.charge?_eq_some paid'.charged).2
    refine ⟨q', rfl, ?_, ?_, ?_, ?_⟩
    · rw [paid.machine, paid'.machine, h.machine]
    · rw [paid.executed, paid'.executed, h.executed]
    · rw [hu, hu', h.machine, h.used]
    · rw [hu, hu']
      exact h.limit

theorem Looser.advances (h : Looser p p') (hs : BoundLE steps steps')
    (ha : Advances steps p done q) : ∃ q', Advances steps' p' done q' ∧ Looser q q' := by
  induction ha generalizing p' with
  | refl p => exact ⟨p', .refl p', h⟩
  | next running paid onward ih =>
    obtain ⟨r, hr, hlooser⟩ := h.advance? hs paid
    obtain ⟨q', hq, hend⟩ := ih hlooser
    rw [← h.machine] at running
    exact ⟨q', .next running hr hq, hend⟩

/-- Where no limit has cut a run short, it ends under any limits. -/
theorem Ends.run_eq (h : Ends steps p rest outcome) (ho : outcome ≠ .budgetExhausted)
    (hm : p'.machine = p.machine) (steps' : Option Nat) : p'.run steps' rest = (p', outcome) := by
  cases h with
  | stopped stop =>
    rw [← hm] at stop
    exact run_of_stopped stop rest
  | completed running =>
    rw [← hm] at running
    rw [run, running]
    rfl
  | refused running unpaid => exact absurd rfl ho

end Progress

namespace Machine

/-- The run `long` does all that the run `short` does and then may go on. -/
structure Outlasts (m : Machine) (program : Program) (start : Nat)
    (long short : Machine × Report) : Prop where
  executed_le : short.2.executed ≤ long.2.executed
  dispatched_prefix : program.instructions.extract start short.2.next <+:
    program.instructions.extract start long.2.next
  /-- The dispatched instructions make the final machine of the shorter run, and those that the
  longer run dispatches beyond them make its own. -/
  machine_eq : short.1 = (m.dispatchAll (program.instructions.extract start short.2.next)).1
  onward_eq :
    long.1 = (short.1.dispatchAll (program.instructions.extract short.2.next long.2.next)).1
  eq_of_settled : short.2.outcome ≠ .budgetExhausted → long = short

theorem looser_begun (m : Machine) (start : Nat) {limits limits' : Limits}
    (h : limits.AtMost limits') :
    Progress.Looser (m.begun start limits) (m.begun start limits') where
  machine := rfl
  executed := rfl
  used := rfl
  limit := by simpa [begun] using h.cost

/-- If no limit has cut a run short, the run that comes through its end is the same run. -/
theorem runFrom_of_settled {m : Machine} {program : Program} {start : Nat} {limits : Limits}
    {steps : Option Nat} {done rest : List Instruction} {q q' : Progress} {outcome : Outcome}
    (hi : program.instructions.drop start = done ++ rest)
    (ha : Progress.Advances limits.steps (m.begun start limits) done q')
    (hq : Progress.Looser q q') (he : Progress.Ends steps q rest outcome)
    (ho : outcome ≠ .budgetExhausted) :
    m.runFrom program start limits =
      (q.machine, ⟨outcome, done.length, q.meter.used, start + done.length⟩) := by
  have hx : q'.executed = done.length := ha.counters.1.trans (Nat.zero_add _)
  have hn : q'.next = start + done.length := ha.counters.2
  rw [runFrom_of_advances hi ha, drop_next_of_advances hi ha, he.run_eq ho hq.machine]
  simp only [hq.machine, hq.used, hx, hn]

/-- Under limits that are no smaller, a run dispatches what it did before and possibly more, and if
no limit had cut it short it is the same run. -/
theorem runFrom_outlasts (m : Machine) (program : Program) (start : Nat) {limits limits' : Limits}
    (h : limits.AtMost limits') :
    Outlasts m program start (m.runFrom program start limits')
      (m.runFrom program start limits) := by
  obtain ⟨done, rest, q, outcome, hi, ha, he, hr⟩ := runFrom_spec m program start limits
  obtain ⟨q', ha', hq⟩ := (m.looser_begun start h).advances h.steps ha
  have hsettled := runFrom_of_settled hi ha' hq he
  obtain ⟨more, left, r, outcome', rfl, hmore, -, hlong⟩ := runFrom_onward hi ha'
  obtain ⟨hdone, hrest, -⟩ := Program.ranges_of_drop_eq hi
  obtain ⟨hmid, -, -⟩ := Program.ranges_of_drop_eq hrest
  rw [← List.append_assoc] at hi
  obtain ⟨hall, -, -⟩ := Program.ranges_of_drop_eq hi
  have hnext : start + done.length + more.length = start + (done ++ more).length := by
    rw [List.length_append, Nat.add_assoc]
  rw [hnext] at hmid
  rw [hr]
  refine ⟨?_, ?_, ?_, ?_, hsettled⟩
  · rw [hlong]
    show done.length ≤ (done ++ more).length
    rw [List.length_append]
    omega
  · rw [hlong]
    show program.instructions.extract start (start + done.length) <+:
      program.instructions.extract start (start + (done ++ more).length)
    rw [hdone, hall]
    exact List.prefix_append done more
  · show q.machine = (m.dispatchAll (program.instructions.extract start (start + done.length))).1
    rw [hdone]
    exact ha.machine_eq
  · rw [hlong]
    show r.machine = (q.machine.dispatchAll
      (program.instructions.extract (start + done.length) (start + (done ++ more).length))).1
    rw [hmid, ← hq.machine]
    exact hmore.machine_eq

/-- A run that halts within its limits, and the same run with an infinite cost and no bound on its
steps. -/
theorem runFrom_outlasts_halted :
    let m : Machine := { registers := Bank.ofPoints [("a", .int 1)], operators := .builtins }
    let program : Program :=
      ⟨[], [⟨"ADD", ["a", "5"], none⟩, ⟨"MUL", ["a", "a"], none⟩, ⟨"HALT", [], none⟩,
        ⟨"NOP", [], none⟩]⟩
    let limits : Limits := ⟨some 8, some 3⟩
    let limits' : Limits := ⟨some (1 / 0), none⟩
    limits.AtMost limits' ∧
      (m.runFrom program 0 limits).2 = ⟨.halted, 3, 8, 3⟩ ∧
      m.runFrom program 0 limits' = m.runFrom program 0 limits := by
  intro m program limits limits'
  have hl : limits.AtMost limits' := by
    constructor
    · show (8 : Float) ≤ 1 / 0
      decide +kernel
    · exact trivial
  have hr : (m.runFrom program 0 limits).2 = ⟨.halted, 3, 8, 3⟩ := by decide +kernel
  refine ⟨hl, hr, (runFrom_outlasts m program 0 hl).eq_of_settled ?_⟩
  rw [hr]
  decide

end Machine
end RegisterMachine
