import RegisterMachine.Machine.Run
import RegisterMachine.Proofs.Bank
import RegisterMachine.Proofs.Machine.Dispatch

/-!
# What a run does

A run pays for instructions and dispatches them one after another, `Advances`, and then ends for one
of three reasons, `Ends`.  Every statement about runs is read off these two: `runFrom_spec` says
that each run from an index of a program has this form.  The run looks at what became of an
instruction as well as at the machine before the next one; the two never disagree, so the second
look is enough.  The final machine is the one that plain dispatch reaches, and the report tells
where and why the run ended.
-/

namespace RegisterMachine

@[simp] theorem Status.outcome?_eq_none_iff {s : Status} : s.outcome? = none ↔ s = .running := by
  cases s <;> simp [Status.outcome?]

/-- The outcome of a run by the status of its machine; `c` says that no instruction is left. -/
theorem Status.outcome_iff (s : Status) (c : Prop) [Decidable c] :
    let outcome := s.outcome?.getD (if c then .completed else .budgetExhausted)
    (outcome = .halted ↔ s = .halted) ∧
    (outcome = .errored ↔ ∃ fault, s = .errored fault) ∧
    (outcome = .completed ↔ s = .running ∧ c) ∧
    (outcome = .budgetExhausted ↔ s = .running ∧ ¬c) := by
  by_cases h : c <;> cases s <;> simp [Status.outcome?, h]

/-- What became of an instruction ends the run exactly if the machine has stopped after it. -/
theorem Machine.dispatch_outcome? {m : Machine} (hs : m.status = .running) (i : Instruction) :
    (m.dispatch i).2.outcome? = (m.dispatch i).1.status.outcome? := by
  have hx := (execute_status m i).trans hs
  obtain ⟨m', he, hd⟩ | ⟨m', he, hd⟩ | ⟨m', cause, he, hd⟩ := dispatch_of_running hs i
  · rw [he] at hx
    rw [hd, hx]
    rfl
  · rw [hd]
    rfl
  · rw [hd]
    rfl

namespace Progress

/-- The run after an instruction that was paid for and dispatched, unless a limit forbids it. -/
def advance? (p : Progress) (steps : Option Nat) (i : Instruction) : Option Progress :=
  (p.step? steps i).map Prod.fst

/-- `p` becomes `q` when the instructions of the list are paid for and dispatched in turn, each on a
machine that is running. -/
inductive Advances (steps : Option Nat) : Progress → List Instruction → Progress → Prop
  | refl (p : Progress) : Advances steps p [] p
  | next {p p' q : Progress} {i : Instruction} {rest : List Instruction}
      (running : p.machine.status = .running) (paid : p.advance? steps i = some p')
      (onward : Advances steps p' rest q) : Advances steps p (i :: rest) q

/-- Why a run ends at `p` with the instructions of the list before it. -/
inductive Ends (steps : Option Nat) (p : Progress) : List Instruction → Outcome → Prop
  | stopped {rest : List Instruction} {outcome : Outcome}
      (stop : p.machine.status.outcome? = some outcome) : Ends steps p rest outcome
  | completed (running : p.machine.status = .running) : Ends steps p [] .completed
  | refused {i : Instruction} {rest : List Instruction} (running : p.machine.status = .running)
      (unpaid : p.advance? steps i = none) : Ends steps p (i :: rest) .budgetExhausted

structure Paid (steps : Option Nat) (p : Progress) (i : Instruction) (p' : Progress) : Prop where
  within : p.outOfSteps steps = false
  machine : p'.machine = (p.machine.dispatch i).1
  charged : p.meter.charge? ((p.machine.costOf? i).getD 0) = some p'.meter
  executed : p'.executed = p.executed + 1
  next : p'.next = p.next + 1

section Step

variable {p p' : Progress} {steps : Option Nat} {i : Instruction} {rest : List Instruction}

theorem step?_eq_some {step : Step} (h : p.step? steps i = some (p', step)) :
    Paid steps p i p' ∧ step = (p.machine.dispatch i).2 := by
  unfold step? at h
  cases ho : p.outOfSteps steps with
  | true => simp [ho] at h
  | false =>
    simp only [ho, Bool.false_eq_true, if_false, Option.map_eq_some_iff, Prod.mk.injEq] at h
    obtain ⟨meter, hm, rfl, rfl⟩ := h
    exact ⟨⟨ho, rfl, hm, rfl, rfl⟩, rfl⟩

theorem advance?_eq_some (h : p.advance? steps i = some p') : Paid steps p i p' := by
  obtain ⟨⟨q, step⟩, hq, rfl⟩ := Option.map_eq_some_iff.mp h
  exact (step?_eq_some hq).1

theorem run_of_stopped {outcome : Outcome} (h : p.machine.status.outcome? = some outcome)
    (is : List Instruction) : p.run steps is = (p, outcome) := by
  cases is with
  | nil => rw [run, h]; rfl
  | cons i rest => simp only [run, h]

theorem run_of_refused (hr : p.machine.status = .running) (h : p.advance? steps i = none) :
    p.run steps (i :: rest) = (p, .budgetExhausted) := by
  have hs := Option.map_eq_none_iff.mp h
  simp only [run, Status.outcome?_eq_none_iff.mpr hr, hs]

/-- A run goes on after a dispatched instruction.  Where this one has stopped the machine, the run
ends there, as it would at the next one. -/
theorem run_of_paid (hr : p.machine.status = .running) (h : p.advance? steps i = some p') :
    p.run steps (i :: rest) = p'.run steps rest := by
  obtain ⟨⟨q, step⟩, hq, rfl⟩ := Option.map_eq_some_iff.mp h
  obtain ⟨paid, rfl⟩ := step?_eq_some hq
  have hstep := Machine.dispatch_outcome? hr i
  rw [← paid.machine] at hstep
  simp only [run, Status.outcome?_eq_none_iff.mpr hr, hq, hstep]
  cases ho : q.machine.status.outcome? with
  | none => rfl
  | some outcome => exact (run_of_stopped ho rest).symm

end Step

theorem exists_advances_ends (p : Progress) (steps : Option Nat) (is : List Instruction) :
    ∃ done rest, is = done ++ rest ∧ Advances steps p done (p.run steps is).1 ∧
      Ends steps (p.run steps is).1 rest (p.run steps is).2 := by
  induction is generalizing p with
  | nil =>
    refine ⟨[], [], rfl, .refl p, ?_⟩
    cases hs : p.machine.status.outcome? with
    | none =>
      simp only [run, hs]
      exact .completed (Status.outcome?_eq_none_iff.mp hs)
    | some outcome =>
      rw [run_of_stopped hs]
      exact .stopped hs
  | cons i rest ih =>
    cases hs : p.machine.status.outcome? with
    | some outcome =>
      rw [run_of_stopped hs]
      exact ⟨[], i :: rest, rfl, .refl p, .stopped hs⟩
    | none =>
      have hr := Status.outcome?_eq_none_iff.mp hs
      cases ha : p.advance? steps i with
      | none =>
        rw [run_of_refused hr ha]
        exact ⟨[], i :: rest, rfl, .refl p, .refused hr ha⟩
      | some p' =>
        rw [run_of_paid hr ha]
        obtain ⟨done, ahead, rfl, hd, he⟩ := ih p'
        exact ⟨i :: done, ahead, rfl, .next hr ha hd, he⟩

/-- Without limits every instruction is paid for. -/
theorem advance?_ne_none {p : Progress} (h : p.meter.limit = none) (i : Instruction) :
    p.advance? none i ≠ none := by
  unfold advance? step? outOfSteps Meter.charge? Meter.exceeds
  rw [h]
  simp

namespace Advances

variable {steps : Option Nat} {p q : Progress} {done : List Instruction}

/-- The two counters advance together, one for each instruction. -/
theorem counters (h : Advances steps p done q) :
    q.executed = p.executed + done.length ∧ q.next = p.next + done.length := by
  induction h with
  | refl p => exact ⟨rfl, rfl⟩
  | next running paid onward ih =>
    have hpaid := advance?_eq_some paid
    rw [ih.1, ih.2, hpaid.executed, hpaid.next, List.length_cons]
    omega

theorem meter_limit (h : Advances steps p done q) : q.meter.limit = p.meter.limit := by
  induction h with
  | refl p => rfl
  | @next p p' q i rest running paid onward ih =>
    have hm := (advance?_eq_some paid).charged
    unfold Meter.charge? at hm
    cases hx : p.meter.exceeds ((p.machine.costOf? i).getD 0) with
    | true => simp [hx] at hm
    | false =>
      simp only [hx, Bool.false_eq_true, if_false, Option.some.injEq] at hm
      rw [ih, ← hm]

theorem machine_eq (h : Advances steps p done q) :
    q.machine = (p.machine.dispatchAll done).1 := by
  induction h with
  | refl p => rfl
  | next running paid onward ih =>
    have hm := (advance?_eq_some paid).machine
    rw [ih, hm]
    rfl

theorem running_before {before after : List Instruction} {i : Instruction}
    (h : Advances steps p (before ++ i :: after) q) :
    (p.machine.dispatchAll before).1.status = .running := by
  induction before generalizing p with
  | nil =>
    cases h with
    | next running paid onward => exact running
  | cons j before ih =>
    cases h with
    | next running paid onward =>
      have hm := (advance?_eq_some paid).machine
      have hr := ih onward
      rw [hm] at hr
      exact hr

theorem not_skipped (h : Advances steps p done q) :
    ∀ s ∈ (p.machine.dispatchAll done).2, s ≠ .skipped := by
  induction h with
  | refl p => intro s hs; cases hs
  | next running paid onward ih =>
    have hm := (advance?_eq_some paid).machine
    intro s hs
    rw [hm] at ih
    rcases List.mem_cons.mp hs with rfl | hs
    · exact fun e => Machine.dispatch_eq_skipped_iff.mp e running
    · exact ih s hs

theorem countP_steps (h : Advances steps p done q) :
    (p.machine.dispatchAll done).2.countP (· ≠ .skipped) = done.length := by
  rw [List.countP_eq_length.mpr, Machine.dispatchAll_length]
  intro s hs
  exact decide_eq_true (h.not_skipped s hs)

/-- Every dispatch but the last leaves the machine running. -/
theorem executed_dropLast (h : Advances steps p done q) :
    ∀ s ∈ (p.machine.dispatchAll done).2.dropLast, s = .executed := by
  induction h with
  | refl p => intro s hs; cases hs
  | @next p p' q i rest running paid onward ih =>
    have hm := (advance?_eq_some paid).machine
    intro s hs
    rw [hm] at ih
    cases onward with
    | refl => cases hs
    | @next _ p'' _ j rest running' paid' onward' =>
      -- The instruction after this one was dispatched, so the machine ran in between.
      rcases List.mem_cons.mp hs with rfl | hs
      · rw [hm] at running'
        exact Machine.dispatch_eq_executed_iff.mpr running'
      · exact ih s hs

/-- A run that has come to `q` goes on from there. -/
theorem run_append (h : Advances steps p done q) (rest : List Instruction) :
    p.run steps (done ++ rest) = q.run steps rest := by
  induction h with
  | refl p => rfl
  | next running paid onward ih =>
    rw [List.cons_append, run_of_paid running paid]
    exact ih

end Advances

namespace Ends

variable {steps : Option Nat} {p : Progress} {rest : List Instruction} {outcome : Outcome}

theorem outcome_eq (h : Ends steps p rest outcome) :
    outcome =
      p.machine.status.outcome?.getD (if rest = [] then .completed else .budgetExhausted) := by
  cases h with
  | stopped stop => rw [stop]; rfl
  | completed running => rw [running]; rfl
  | refused running unpaid => rw [running]; rfl

/-- Without limits a run ends only where no instruction would be dispatched. -/
theorem of_unlimited (h : Ends none p rest outcome) (hl : p.meter.limit = none) :
    p.machine.status ≠ .running ∨ rest = [] := by
  cases h with
  | stopped stop =>
    left
    intro hr
    rw [hr] at stop
    cases stop
  | completed running => exact .inr rfl
  | refused running unpaid => exact absurd unpaid (advance?_ne_none hl _)

end Ends
end Progress

/-- The instructions of a run as ranges of the program: those that were dispatched and those that
remain. -/
theorem Program.ranges_of_drop_eq {program : Program} {start : Nat} {done rest : List Instruction}
    (h : program.instructions.drop start = done ++ rest) :
    program.instructions.extract start (start + done.length) = done ∧
      program.instructions.drop (start + done.length) = rest ∧
      program.instructions.length - start = done.length + rest.length := by
  refine ⟨?_, ?_, ?_⟩
  · rw [List.extract_eq_take_drop, Nat.add_sub_cancel_left, h, List.take_left]
  · rw [← List.drop_drop, h, List.drop_left]
  · rw [← List.length_drop, h, List.length_append]

namespace Machine

def begun (m : Machine) (start : Nat) (limits : Limits) : Progress :=
  ⟨m, .ofLimit limits.cost, 0, start⟩

section Onward

variable {m : Machine} {program : Program} {start : Nat} {limits : Limits}
  {done rest : List Instruction} {q : Progress}

/-- The instructions before a run in progress are those of the program from its index on. -/
theorem drop_next_of_advances (hi : program.instructions.drop start = done ++ rest)
    (ha : Progress.Advances limits.steps (m.begun start limits) done q) :
    program.instructions.drop q.next = rest := by
  rw [ha.counters.2]
  exact (Program.ranges_of_drop_eq hi).2.1

/-- Once a run has come to `q`, what it makes of the program is what it makes of the instructions
from the index of `q` on. -/
theorem runFrom_of_advances (hi : program.instructions.drop start = done ++ rest)
    (ha : Progress.Advances limits.steps (m.begun start limits) done q) :
    m.runFrom program start limits =
      let after := q.run limits.steps (program.instructions.drop q.next)
      (after.1.machine,
        ⟨after.2, after.1.executed, after.1.meter.used, after.1.next⟩) := by
  have hrun := ha.run_append rest
  rw [drop_next_of_advances hi ha, ← hrun, ← hi]
  rfl

/-- From `q` on the run advances and ends as any run does. -/
theorem runFrom_onward (hi : program.instructions.drop start = done ++ rest)
    (ha : Progress.Advances limits.steps (m.begun start limits) done q) :
    ∃ more left r outcome, rest = more ++ left ∧ Progress.Advances limits.steps q more r ∧
      Progress.Ends limits.steps r left outcome ∧
      m.runFrom program start limits = (r.machine,
        ⟨outcome, (done ++ more).length, r.meter.used, start + (done ++ more).length⟩) := by
  obtain ⟨more, left, hsplit, hmore, he⟩ := Progress.exists_advances_ends q limits.steps rest
  refine ⟨more, left, _, _, hsplit, hmore, he, ?_⟩
  have hx : (q.run limits.steps rest).1.executed = (done ++ more).length := by
    rw [hmore.counters.1, ha.counters.1, List.length_append]
    show 0 + done.length + more.length = _
    omega
  have hn : (q.run limits.steps rest).1.next = start + (done ++ more).length := by
    rw [hmore.counters.2, ha.counters.2, List.length_append]
    show start + done.length + more.length = _
    omega
  rw [runFrom_of_advances hi ha, drop_next_of_advances hi ha, ← hn, ← hx]

end Onward

theorem runFrom_spec (m : Machine) (program : Program) (start : Nat) (limits : Limits) :
    ∃ done rest q outcome, program.instructions.drop start = done ++ rest ∧
      Progress.Advances limits.steps (m.begun start limits) done q ∧
      Progress.Ends limits.steps q rest outcome ∧
      m.runFrom program start limits =
        (q.machine, ⟨outcome, done.length, q.meter.used, start + done.length⟩) :=
  runFrom_onward (List.nil_append _).symm (.refl _)

/-- A stopped machine is not run. -/
theorem runFrom_of_stopped {m : Machine} (h : m.status ≠ .running) (program : Program)
    (start : Nat) (limits : Limits) :
    (m.runFrom program start limits).1 = m ∧ (m.runFrom program start limits).2.executed = 0 ∧
      (m.runFrom program start limits).2.cost = 0 := by
  obtain ⟨done, rest, q, outcome, -, ha, -, hr⟩ := runFrom_spec m program start limits
  rw [hr]
  cases ha with
  | refl => exact ⟨rfl, rfl, rfl⟩
  | next running paid onward => exact absurd running h

/-- Without limits a run is plain dispatch of all that remains.  It counts the instructions that are
not skipped, and those that are skipped come last. -/
theorem runFrom_unlimited (m : Machine) (program : Program) (start : Nat) :
    let all := m.dispatchAll (program.instructions.drop start)
    let report := (m.runFrom program start .unlimited).2
    (m.runFrom program start .unlimited).1 = all.1 ∧
      report.outcome = all.1.status.outcome?.getD .completed ∧
      report.executed = all.2.countP (· ≠ .skipped) ∧
      all.2 = (m.dispatchAll (program.instructions.extract start report.next)).2 ++
        List.replicate (program.instructions.length - report.next) .skipped := by
  obtain ⟨done, rest, q, outcome, hi, ha, he, hr⟩ := runFrom_spec m program start .unlimited
  have hl : q.meter.limit = none := ha.meter_limit
  have hall : m.dispatchAll (program.instructions.drop start) =
      (q.machine, (m.dispatchAll done).2 ++ List.replicate rest.length .skipped) := by
    have hm : q.machine = (m.dispatchAll done).1 := ha.machine_eq
    rw [hi, dispatchAll_append, ← hm]
    rcases he.of_unlimited hl with hs | rfl
    · rw [dispatchAll_of_stopped hs]
    · rfl
  obtain ⟨hx, -, hlen⟩ := Program.ranges_of_drop_eq hi
  have hrest : program.instructions.length - (start + done.length) = rest.length := by omega
  rw [hr, hall]
  refine ⟨rfl, ?_, ?_, ?_⟩
  · rw [he.outcome_eq]
    rcases he.of_unlimited hl with hs | rfl
    · cases ho : q.machine.status.outcome? with
      | none => exact absurd (Status.outcome?_eq_none_iff.mp ho) hs
      | some o => rfl
    · rfl
  · have hd : (m.dispatchAll done).2.countP (· ≠ .skipped) = done.length := ha.countP_steps
    rw [List.countP_append, hd]
    simp
  · rw [hx, hrest]

/-- Each instruction of a run is dispatched on a running machine. -/
theorem dispatchAll_status_of_dispatched {m : Machine} {program : Program} {start : Nat}
    {limits : Limits} {before after : List Instruction} {i : Instruction}
    (h : program.instructions.extract start (m.runFrom program start limits).2.next =
      before ++ i :: after) : (m.dispatchAll before).1.status = .running := by
  obtain ⟨done, rest, q, outcome, hi, ha, -, hr⟩ := runFrom_spec m program start limits
  rw [hr, (Program.ranges_of_drop_eq hi).1] at h
  subst h
  exact ha.running_before

/-- What a run of `program` on `m` from `start` reports, and the machine `m'` in which it ends. -/
structure ExactRun (m : Machine) (program : Program) (start : Nat) (m' : Machine)
    (report : Report) : Prop where
  next_eq : report.next = start + report.executed
  next_lt : start < Literal.countBound → program.instructions.length < Literal.countBound →
    report.next < Literal.countBound
  next_le : start ≤ program.instructions.length → report.next ≤ program.instructions.length
  executed_eq : program.instructions.length < start → report.executed = 0
  machine_eq : m' = (m.dispatchAll (program.instructions.extract start report.next)).1
  executed_dropLast :
    ∀ s ∈ (m.dispatchAll (program.instructions.extract start report.next)).2.dropLast,
      s = .executed
  halted_iff : report.outcome = .halted ↔ m'.status = .halted
  errored_iff : report.outcome = .errored ↔ ∃ fault, m'.status = .errored fault
  completed_iff : report.outcome = .completed ↔
    m'.status = .running ∧ program.instructions.length ≤ report.next
  budgetExhausted_iff : report.outcome = .budgetExhausted ↔
    m'.status = .running ∧ report.next < program.instructions.length

theorem exactRun_runFrom (m : Machine) (program : Program) (start : Nat) (limits : Limits) :
    ExactRun m program start (m.runFrom program start limits).1
      (m.runFrom program start limits).2 := by
  obtain ⟨done, rest, q, outcome, hi, ha, he, hr⟩ := runFrom_spec m program start limits
  obtain ⟨hx, -, hlen⟩ := Program.ranges_of_drop_eq hi
  -- A start past the end leaves nothing to dispatch, and then `next` is the start.
  have hdone : start + done.length ≤ max start program.instructions.length := by omega
  have hnext : q.next = start + done.length := ha.counters.2
  have hrest : rest = [] ↔ program.instructions.length ≤ start + done.length := by
    rw [← drop_next_of_advances hi ha, List.drop_eq_nil_iff, hnext]
  obtain ⟨h1, h2, h3, h4⟩ := Status.outcome_iff q.machine.status (rest = [])
  rw [← he.outcome_eq] at h1 h2 h3 h4
  rw [hr]
  refine ⟨rfl, ?_, ?_, ?_, ?_, ?_, h1, h2, ?_, ?_⟩
  · show start < _ → program.instructions.length < _ → start + done.length < _
    omega
  · show start ≤ _ → start + done.length ≤ _
    omega
  · show _ < start → done.length = 0
    omega
  · show q.machine = (m.dispatchAll (program.instructions.extract _ (start + done.length))).1
    rw [hx]
    exact ha.machine_eq
  · show ∀ s ∈ (m.dispatchAll (program.instructions.extract _ (start + done.length))).2.dropLast, _
    rw [hx]
    exact ha.executed_dropLast
  · rw [h3, hrest]
  · rw [h4, hrest, Nat.not_le]

/-- A run refines plain dispatch, and its report is exact.  A stopped machine is left as it is.
Without limits the run is the dispatch of every instruction that remains, and those after a stop are
skipped. -/
theorem runFrom_refines_dispatch (m : Machine) (program : Program) (start : Nat)
    (limits : Limits) :
    ExactRun m program start (m.runFrom program start limits).1
        (m.runFrom program start limits).2 ∧
      (m.status ≠ .running →
        (m.runFrom program start limits).1 = m ∧
          (m.runFrom program start limits).2.executed = 0 ∧
          (m.runFrom program start limits).2.cost = 0) ∧
      (m.runFrom program start .unlimited).1 =
        (m.dispatchAll (program.instructions.drop start)).1 ∧
      (m.dispatchAll (program.instructions.drop start)).2 =
        (m.dispatchAll (program.instructions.extract start
            (m.runFrom program start .unlimited).2.next)).2 ++
          List.replicate
            (program.instructions.length - (m.runFrom program start .unlimited).2.next)
            .skipped := by
  obtain ⟨hm, -, -, hs⟩ := runFrom_unlimited m program start
  exact ⟨exactRun_runFrom m program start limits,
    fun h => runFrom_of_stopped h program start limits, hm, hs⟩

/-- The second of three instructions halts the machine, so the last one is skipped, and the halted
machine is not run again. -/
theorem runFrom_refines_dispatch_halted :
    let m : Machine := { registers := Bank.ofPoints [("a", .int 1)], operators := .builtins }
    let program : Program := ⟨[], [⟨"ADD", ["a", "2"], some 1⟩, ⟨"HALT", [], some 2⟩,
      ⟨"ADD", ["a", "a"], some 3⟩]⟩
    let after := m.runFrom program 0 .unlimited
    after.1.status = .halted ∧ after.1.registers.lookup? "a" = some (.int 3) ∧
      after.2 = ⟨.halted, 2, 3, 2⟩ ∧
      (m.dispatchAll program.instructions).2 = [.executed, .halted, .skipped] ∧
      after.1.status ≠ .running ∧ (after.1.runFrom program 2 .unlimited).1 = after.1 := by
  intro m program after
  have hstatus : after.1.status = .halted := by decide +kernel
  have hs : after.1.status ≠ .running := by simp [hstatus]
  obtain ⟨-, -, -, hskipped⟩ := runFrom_refines_dispatch m program 0 .unlimited
  exact ⟨hstatus, by decide +kernel, by decide +kernel, hskipped.trans (by decide +kernel), hs,
    ((runFrom_refines_dispatch after.1 program 2 .unlimited).2.1 hs).1⟩

end Machine
end RegisterMachine
