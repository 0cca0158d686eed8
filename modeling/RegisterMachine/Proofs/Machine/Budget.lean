import RegisterMachine.Proofs.Machine.Run

/-!
# What a run may spend

A run pays before it dispatches, so what the meter shows is the sum of the prices of what was
dispatched, added up in that order.  `Within` is what each payment keeps: the meter does not show
more than its limit.  Numbers are added and compared as they come, and nothing is used of them but
that zero is not below zero, so an undefined price or an infinite limit needs no case of its own.
A run pauses exactly where the steps are used up or the next price would pass the limit.
-/

namespace RegisterMachine

/-- The price of an instruction; an unknown opcode costs nothing. -/
def Registry.price (r : Registry) (i : Instruction) : Float :=
  ((r.get? i.opcode).map Operator.cost).getD 0

/-- What is shown by a meter that stood at `before` when all the instructions are paid. -/
def Registry.spend (r : Registry) (before : Float) (is : List Instruction) : Float :=
  (is.map r.price).foldl (· + ·) before

/-- The most that a run may spend.  A limit that is undefined or negative counts as zero. -/
def Limits.allowance (limits : Limits) : Option Float :=
  limits.cost.map fun l => if l.isNaN ∨ l < 0 then 0 else l

namespace Meter

def Within (m : Meter) : Prop :=
  ∀ l, m.limit = some l → ¬l < m.used

theorem exceeds_iff {m : Meter} {amount : Float} :
    m.exceeds amount = true ↔ ∃ l, m.limit = some l ∧ l < m.used + amount := by
  unfold exceeds
  cases m.limit with
  | none => simp
  | some l => simp

theorem charge?_eq_some {m m' : Meter} {amount : Float} (h : m.charge? amount = some m') :
    m.exceeds amount = false ∧ m' = { m with used := m.used + amount } := by
  unfold charge? at h
  cases hx : m.exceeds amount with
  | true => simp [hx] at h
  | false => simp [hx] at h; exact ⟨rfl, h.symm⟩

@[simp] theorem charge?_eq_none_iff {m : Meter} {amount : Float} :
    m.charge? amount = none ↔ m.exceeds amount = true := by
  unfold charge?
  cases m.exceeds amount <;> simp

theorem within_charge? {m m' : Meter} {amount : Float} (h : m.charge? amount = some m') :
    m'.Within := by
  obtain ⟨hx, rfl⟩ := charge?_eq_some h
  intro l hl hlt
  have he : m.exceeds amount = true := exceeds_iff.mpr ⟨l, hl, hlt⟩
  rw [hx] at he
  cases he

@[simp] theorem ofLimit_limit (limits : Limits) :
    (ofLimit limits.cost).limit = limits.allowance := by
  unfold ofLimit Limits.allowance
  cases limits.cost with
  | none => rfl
  | some l => simp

/-- A meter on which nothing is spent is within its limit, whatever limit was asked for. -/
theorem within_ofLimit (limits : Limits) : (ofLimit limits.cost).Within := by
  intro l hl hlt
  rw [ofLimit_limit, Limits.allowance, Option.map_eq_some_iff] at hl
  obtain ⟨asked, -, hl⟩ := hl
  have hlt : l < 0 := hlt
  by_cases ha : asked.isNaN ∨ asked < 0
  · rw [if_pos ha] at hl
    subst hl
    exact absurd hlt (by decide)
  · rw [if_neg ha] at hl
    subst hl
    exact ha (.inr hlt)

end Meter

namespace Progress

theorem outOfSteps_iff {p : Progress} {steps : Option Nat} :
    p.outOfSteps steps = true ↔ ∃ most, steps = some most ∧ most ≤ p.executed := by
  unfold outOfSteps
  cases steps with
  | none => simp
  | some most => simp

theorem advance?_eq_none_iff {p : Progress} {steps : Option Nat} {i : Instruction} :
    p.advance? steps i = none ↔
      (∃ most, steps = some most ∧ most ≤ p.executed) ∨
        ∃ l, p.meter.limit = some l ∧ l < p.meter.used + p.machine.operators.price i := by
  rw [← outOfSteps_iff, ← Meter.exceeds_iff, ← Meter.charge?_eq_none_iff]
  unfold advance? step? Registry.price Machine.costOf?
  cases p.outOfSteps steps <;> simp

namespace Advances

variable {steps : Option Nat} {p q : Progress} {done : List Instruction}

theorem operators_eq (h : Advances steps p done q) :
    q.machine.operators = p.machine.operators := by
  simp [h.machine_eq]

theorem used_eq (h : Advances steps p done q) :
    q.meter.used = p.machine.operators.spend p.meter.used done := by
  induction h with
  | refl p => rfl
  | @next p p' q i rest running paid onward ih =>
    have hpaid := advance?_eq_some paid
    have hu : p'.meter.used = p.meter.used + p.machine.operators.price i := by
      rw [(Meter.charge?_eq_some hpaid.charged).2]
      rfl
    rw [ih, hu, hpaid.machine, Machine.dispatch_operators]
    rfl

theorem within (h : Advances steps p done q) (hp : p.meter.Within) : q.meter.Within := by
  induction h with
  | refl p => exact hp
  | next running paid onward ih => exact ih (Meter.within_charge? (advance?_eq_some paid).charged)

theorem executed_le (h : Advances steps p done q) {most : Nat} (hs : steps = some most)
    (hp : p.executed ≤ most) : q.executed ≤ most := by
  induction h with
  | refl p => exact hp
  | @next p p' q i rest running paid onward ih =>
    have hpaid := advance?_eq_some paid
    have hlt : ¬most ≤ p.executed := by
      intro hle
      have ho := hpaid.within
      rw [outOfSteps_iff.mpr ⟨most, hs, hle⟩] at ho
      cases ho
    have he := hpaid.executed
    exact ih (by omega)

theorem of_append {before after : List Instruction} (h : Advances steps p (before ++ after) q) :
    ∃ r, Advances steps p before r ∧ Advances steps r after q := by
  induction before generalizing p with
  | nil => exact ⟨p, .refl p, h⟩
  | cons i rest ih =>
    cases h with
    | next running paid onward =>
      obtain ⟨r, hr, ha⟩ := ih onward
      exact ⟨r, .next running paid hr, ha⟩

end Advances

theorem Ends.budgetExhausted_iff {steps : Option Nat} {p : Progress} {rest : List Instruction}
    {outcome : Outcome} (h : Ends steps p rest outcome) :
    outcome = .budgetExhausted ↔
      p.machine.status = .running ∧ ∃ i, rest.head? = some i ∧ p.advance? steps i = none := by
  cases h with
  | stopped stop =>
    cases hs : p.machine.status with
    | running => rw [hs] at stop; cases stop
    | halted => rw [hs] at stop; cases stop; simp
    | errored fault => rw [hs] at stop; cases stop; simp
  | completed running => simp
  | refused running unpaid => simp [running, unpaid]

end Progress

namespace Machine

/-- What a run of `program` on `m` from `start` under `limits` has spent when it ends in `m'` with
the report: no limit is passed, at the end or on the way, and a pause has its reason. -/
structure Budgeted (m : Machine) (program : Program) (start : Nat) (limits : Limits) (m' : Machine)
    (report : Report) : Prop where
  executed_eq : report.executed = (program.instructions.extract start report.next).length
  executed_le : ∀ most, limits.steps = some most → report.executed ≤ most
  cost_eq : report.cost =
    m.operators.spend 0 (program.instructions.extract start report.next)
  machine_eq : m' = (m.dispatchAll (program.instructions.extract start report.next)).1
  cost_within : ∀ l, limits.allowance = some l → ¬l < report.cost
  /-- After each instruction the meter shows what has been spent up to there. -/
  within_throughout : ∀ before after,
    program.instructions.extract start report.next = before ++ after →
      ∃ p, Progress.Advances limits.steps (m.begun start limits) before p ∧
        p.meter.used = m.operators.spend 0 before ∧
        ∀ l, limits.allowance = some l → ¬l < p.meter.used
  budgetExhausted_iff : report.outcome = .budgetExhausted ↔
    m'.status = .running ∧ ∃ i, program.instructions[report.next]? = some i ∧
      (limits.steps = some report.executed ∨
        ∃ l, limits.allowance = some l ∧ l < report.cost + m.operators.price i)

theorem within_begun (m : Machine) (start : Nat) (limits : Limits) :
    (m.begun start limits).meter.Within :=
  Meter.within_ofLimit limits

theorem meter_of_advances {m : Machine} {start : Nat} {limits : Limits} {done : List Instruction}
    {q : Progress}
    (h : Progress.Advances limits.steps (m.begun start limits) done q) :
    q.meter.used = m.operators.spend 0 done ∧
      ∀ l, limits.allowance = some l → ¬l < q.meter.used := by
  refine ⟨h.used_eq, fun l hl => h.within (m.within_begun start limits) l ?_⟩
  simpa [h.meter_limit, begun] using hl

/-- A run is refused its next instruction exactly when the limits forbid it. -/
theorem refused_iff {m : Machine} {start : Nat} {limits : Limits} {done : List Instruction}
    {q : Progress}
    (h : Progress.Advances limits.steps (m.begun start limits) done q) (i : Instruction) :
    q.advance? limits.steps i = none ↔
      limits.steps = some done.length ∨
        ∃ l, limits.allowance = some l ∧ l < q.meter.used + m.operators.price i := by
  have hx : q.executed = done.length := by
    rw [h.counters.1]
    exact Nat.zero_add done.length
  have hl : q.meter.limit = limits.allowance := by simp [h.meter_limit, begun]
  have ho : q.machine.operators = m.operators := h.operators_eq
  rw [Progress.advance?_eq_none_iff, hl, ho, hx]
  refine or_congr_left ⟨?_, fun hs => ⟨done.length, hs, Nat.le_refl _⟩⟩
  rintro ⟨most, hs, hle⟩
  -- The limit was kept so far, so it can only be reached exactly.
  have hmost : q.executed ≤ most := h.executed_le hs (Nat.zero_le most)
  rw [hs, Nat.le_antisymm hle (hx ▸ hmost)]

/-- No run passes its limits, what it has spent is the sum of what it has dispatched, and it pauses
only for want of steps or of means. -/
theorem runFrom_budgeted (m : Machine) (program : Program) (start : Nat) (limits : Limits) :
    Budgeted m program start limits (m.runFrom program start limits).1
      (m.runFrom program start limits).2 := by
  have hexact := exactRun_runFrom m program start limits
  obtain ⟨done, rest, q, outcome, hi, ha, he, hr⟩ := runFrom_spec m program start limits
  obtain ⟨hx, hrest, -⟩ := Program.ranges_of_drop_eq hi
  obtain ⟨hused, hwithin⟩ := meter_of_advances ha
  rw [hr] at hexact ⊢
  have hdone : q.executed = done.length := ha.counters.1.trans (Nat.zero_add done.length)
  refine ⟨?_, ?_, ?_, hexact.machine_eq, hwithin, ?_, ?_⟩
  · show done.length = (program.instructions.extract start (start + done.length)).length
    rw [hx]
  · intro most hs
    have hle := ha.executed_le hs (Nat.zero_le most)
    rw [hdone] at hle
    exact hle
  · show q.meter.used =
      m.operators.spend 0 (program.instructions.extract start (start + done.length))
    rw [hx]
    exact hused
  · intro before after hsplit
    have hsplit : done = before ++ after := hx.symm.trans hsplit
    rw [hsplit] at ha
    obtain ⟨p, hp, -⟩ := ha.of_append
    exact ⟨p, hp, meter_of_advances hp⟩
  · have hnext : program.instructions[start + done.length]? = rest.head? := by
      rw [← hrest, List.head?_drop]
    show outcome = .budgetExhausted ↔ q.machine.status = .running ∧
      ∃ i, program.instructions[start + done.length]? = some i ∧ _
    rw [hnext, he.budgetExhausted_iff]
    simp only [refused_iff ha]

end Machine
end RegisterMachine
