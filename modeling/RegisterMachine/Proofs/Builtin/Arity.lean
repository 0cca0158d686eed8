import RegisterMachine.Proofs.Bank.Denotation
import RegisterMachine.Proofs.Builtin.Commute

/-!
# The number of operands

The number of operands is checked twice before an instruction acts, by the machine and by the
instruction itself, against a table that is written apart from the cases of the instruction.  Table
and cases agree: the last case, for operands that fit none of the others, is never reached once the
number is accepted.  A number that is refused is the only cause of an arity mismatch, and it is
refused with the same cause by either check.  So a machine with the built-in operators does what the
instruction does when it is called by itself.
-/

namespace RegisterMachine

theorem Arity.accepts_eq_false_iff {a : Arity} {n : Nat} :
    a.accepts n = false ↔ ¬(a.min ≤ n ∧ n ≤ a.max) := by
  simp [accepts, ← Bool.not_eq_true]

/-- What can be wrong once the number of operands is accepted. -/
theorem Computation.plan_eq_error {c : Computation} {b : Bank} {target : String}
    {tokens : List String} {cause : Cause} (h : c.plan b target tokens = .error cause) :
    cause = .noSuchRegister c.target target ∨ (∃ token, b.Refuses c.source token cause) ∨
      cause = .divisionByZero target := by
  unfold plan Bank.destination at h
  cases hd : b.read? c.target target with
  | none =>
    rw [hd] at h
    cases h
    exact .inl rfl
  | some seed =>
    cases hr : b.resolveAll c.source tokens with
    | error refusal =>
      rw [hd, hr] at h
      cases h
      obtain ⟨before, token, after, -, -, hrefuses⟩ := Bank.resolveAll_eq_error_iff.mp hr
      exact .inr (.inl ⟨token, hrefuses⟩)
    | ok words =>
      simp only [hd, hr, bind, Except.bind] at h
      cases hw : c.result? seed words with
      | none =>
        rw [hw] at h
        cases h
        exact .inr (.inr rfl)
      | some result =>
        rw [hw] at h
        cases h

theorem Computation.plan_ne_arityMismatch (c : Computation) (b : Bank) (target : String)
    (tokens : List String) (opcode : String) (min max actual : Nat) :
    c.plan b target tokens ≠ .error (.arityMismatch opcode min max actual) := by
  intro h
  rcases plan_eq_error h with hc | ⟨token, hc⟩ | hc
  · cases hc
  · cases hc
  · cases hc

namespace Builtin

/-- Once the number of operands is accepted, one of the cases before the last applies. -/
theorem body_of_accepts {i : Builtin} {operands : List String}
    (h : i.arity.accepts operands.length = true) (b : Bank) (otherwise : Except Cause Effect) :
    i.body operands b otherwise = i.plan operands b := by
  unfold plan Arity.check
  rw [h]
  cases i with
  | fold op =>
    match operands, h with
    | target :: tokens, _ => rfl
  | compare k r =>
    match operands, h with
    | [target, left, right], _ => rfl
  | transfer t =>
    match operands, h with
    | [target, source], _ => rfl
  | unary k op =>
    match operands, h with
    | [target], _ => rfl
  | nop =>
    match operands, h with
    | [], _ => rfl
  | halt =>
    match operands, h with
    | [], _ => rfl

theorem plan_ne_arityMismatch {i : Builtin} {operands : List String}
    (h : i.arity.accepts operands.length = true) (b : Bank) (opcode : String)
    (min max actual : Nat) :
    i.plan operands b ≠ .error (.arityMismatch opcode min max actual) := by
  obtain ⟨-, -, hp⟩ | ⟨c, target, tokens, -, -, hp⟩ := plan_of_accepts h
  · rw [hp]
    exact fun he => nomatch he
  · rw [hp]
    exact c.plan_ne_arityMismatch b target tokens opcode min max actual

/-- An arity mismatch is reported for a number that the table does not accept, and for nothing
else. -/
theorem run_eq_arityMismatch_iff {i : Builtin} {operands : List String} {context after : Context}
    {opcode : String} {min max actual : Nat} :
    i.run operands context = .error (.arityMismatch opcode min max actual) after ↔
      i.arity.accepts operands.length = false ∧
        Cause.arityMismatch opcode min max actual = i.arity.mismatch i.opcode operands.length ∧
        after = context := by
  constructor
  · intro h
    obtain ⟨hp, rfl⟩ := run_eq_error h
    cases ha : i.arity.accepts operands.length with
    | true => exact absurd hp (plan_ne_arityMismatch ha _ _ _ _ _)
    | false =>
      rw [plan_of_not_accepts ha] at hp
      exact ⟨rfl, (Except.error.inj hp).symm, rfl⟩
  · intro h
    obtain ⟨ha, hc, rfl⟩ := h
    rw [run_eq_plan, plan_of_not_accepts ha, hc]

end Builtin

namespace Machine

variable {m : Machine}

/-- An instruction with the opcode of a built-in one is answered as that one is when it is called on
the registers. -/
theorem execute_eq_call (hm : m.operators = .builtins) (i : Builtin) (operands : List String)
    (line : Option Nat) :
    (m.execute ⟨i.opcode, operands, line⟩).2 = (i.call operands m.registers).1 ∧
      (m.execute ⟨i.opcode, operands, line⟩).1.registers = (i.call operands m.registers).2 := by
  rw [Builtin.call_eq_plan]
  obtain ⟨hb, -⟩ | ⟨b, hb, hcases⟩ := execute_of_builtins hm ⟨i.opcode, operands, line⟩
  · simp at hb
  · obtain rfl : i = b := Option.some.inj (i.ofOpcode?_opcode.symm.trans hb)
    obtain ⟨ha, he⟩ | ⟨-, ho⟩ := hcases
    · rw [he, Builtin.plan_of_not_accepts ha]
      exact ⟨rfl, rfl⟩
    · rw [execute_of_operator ho]
      cases i.plan operands m.registers with
      | error cause => exact ⟨rfl, rfl⟩
      | ok effect => exact ⟨rfl, rfl⟩

/-- On a running machine, what becomes of an instruction with the opcode of a built-in one is the
answer of that one, and so are the registers and the fault. -/
theorem dispatch_eq_call (hm : m.operators = .builtins) (hs : m.status = .running) (i : Builtin)
    (operands : List String) (line : Option Nat) :
    let answer := i.call operands m.registers
    let after := m.dispatch ⟨i.opcode, operands, line⟩
    after.1.registers = answer.2 ∧
      ((answer.1 = .ok false ∧ after.2 = .executed ∧ after.1.status = .running) ∨
        (answer.1 = .ok true ∧ after.2 = .halted ∧ after.1.status = .halted) ∨
        ∃ cause, answer.1 = .error cause ∧ after.2 = .faulted ∧
          after.1.status = .errored ⟨i.opcode, line, cause⟩) := by
  intro answer after
  obtain ⟨hanswer, hregisters⟩ := execute_eq_call hm i operands line
  have hframe : (m.execute ⟨i.opcode, operands, line⟩).1.status = m.status := by
    obtain ⟨registers, profile, he⟩ := execute_frame m ⟨i.opcode, operands, line⟩
    rw [he]
  refine ⟨(dispatch_registers_of_running hs _).trans hregisters, ?_⟩
  obtain ⟨m', he, hd⟩ | ⟨m', he, hd⟩ | ⟨m', cause, he, hd⟩ :=
    dispatch_of_running hs ⟨i.opcode, operands, line⟩
  · have hafter : after = (m', .executed) := hd
    rw [he] at hanswer hframe
    rw [hafter]
    exact .inl ⟨hanswer.symm, rfl, hframe.trans hs⟩
  · have hafter : after = ({ m' with status := .halted }, .halted) := hd
    rw [he] at hanswer
    rw [hafter]
    exact .inr (.inl ⟨hanswer.symm, rfl, rfl⟩)
  · have hafter : after =
        ({ m' with status := .errored ⟨i.opcode, line, cause⟩ }, .faulted) := hd
    rw [he] at hanswer
    rw [hafter]
    exact .inr (.inr ⟨cause, hanswer.symm, rfl, rfl⟩)

end Machine

/-- An instruction reports an arity mismatch exactly if the number of its operands is out of bounds,
with its opcode, its bounds and the number.  Within the bounds the last of its cases is never
reached, whatever stands there.  A running machine with the built-in operators executes an
instruction, halts or faults exactly as the instruction with that opcode answers when it is called
on the registers, with the same fault, and is left with the same registers. -/
theorem Builtin.run_arity_exact :
    (∀ (i : Builtin) (operands : List String) (context : Context),
      let n := operands.length
      let b := context.registers
      ((∃ opcode min max actual after,
          i.run operands context = .error (.arityMismatch opcode min max actual) after) ↔
        ¬(i.arity.min ≤ n ∧ n ≤ i.arity.max)) ∧
      (∀ opcode min max actual after,
        i.run operands context = .error (.arityMismatch opcode min max actual) after →
          opcode = i.opcode ∧ min = i.arity.min ∧ max = i.arity.max ∧ actual = n) ∧
      i.plan operands b = (i.arity.check i.opcode n).bind (fun _ =>
        i.body operands b (.error (i.arity.mismatch i.opcode n))) ∧
      (i.arity.min ≤ n ∧ n ≤ i.arity.max → ∀ otherwise otherwise',
        i.body operands b otherwise = i.body operands b otherwise')) ∧
    ∀ (m : Machine) (i : Builtin) (operands : List String) (line : Option Nat),
      m.operators = .builtins → m.status = .running →
      let answer := i.call operands m.registers
      let after := m.dispatch ⟨i.opcode, operands, line⟩
      (after.2 = .faulted ↔ ∃ cause, answer.1 = .error cause) ∧
      (∀ cause, after.1.status = .errored ⟨i.opcode, line, cause⟩ ↔ answer.1 = .error cause) ∧
      (after.2 = .halted ↔ answer.1 = .ok true) ∧
      (after.2 = .executed ↔ answer.1 = .ok false) ∧
      after.1.registers = answer.2 := by
  refine ⟨fun i operands context => ?_, fun m i operands line hm hs => ?_⟩
  · intro n b
    refine ⟨⟨fun h => ?_, fun h => ?_⟩, fun opcode min max actual after h => ?_, rfl,
      fun h otherwise otherwise' => ?_⟩
    · obtain ⟨opcode, min, max, actual, after, hrun⟩ := h
      exact Arity.accepts_eq_false_iff.mp (run_eq_arityMismatch_iff.mp hrun).1
    · exact ⟨_, _, _, _, _,
        run_eq_arityMismatch_iff.mpr ⟨Arity.accepts_eq_false_iff.mpr h, rfl, rfl⟩⟩
    · exact Cause.arityMismatch.inj (run_eq_arityMismatch_iff.mp h).2.1
    · have ha : i.arity.accepts n = true := by
        rw [← Bool.not_eq_false, Arity.accepts_eq_false_iff]
        exact fun hno => hno h
      rw [body_of_accepts ha, body_of_accepts ha]
  · intro answer after
    obtain ⟨hregisters, hcases⟩ := Machine.dispatch_eq_call hm hs i operands line
    rcases hcases with ⟨ha, hstep, hstatus⟩ | ⟨ha, hstep, hstatus⟩ | ⟨cause, ha, hstep, hstatus⟩ <;>
      simp [answer, after, ha, hstep, hstatus, hregisters, eq_comm]

/-- The first instruction has too few operands, and the machine refuses it with the cause that the
instruction gives. -/
theorem Builtin.run_arity_exact_missing_operand :
    let m : Machine := { registers := Bank.ofPoints [("a", .int 7)], operators := .builtins }
    let cause : Cause := .arityMismatch "DIV" 2 16 1
    m.status = .running ∧ ((fold (.int .div)).call ["a"] m.registers).1 = .error cause ∧
      (m.dispatch ⟨"DIV", ["a"], some 3⟩).1.status = .errored ⟨"DIV", some 3, cause⟩ ∧
      (m.dispatch ⟨"HALT", [], some 4⟩).2 = .halted := by
  intro m cause
  have hcall : ((fold (.int .div)).call ["a"] m.registers).1 = .error cause := rfl
  have hhalt : (halt.call [] m.registers).1 = .ok true := rfl
  obtain ⟨-, hfault, -⟩ := run_arity_exact.2 m (fold (.int .div)) ["a"] (some 3) rfl rfl
  obtain ⟨-, -, hhalted, -⟩ := run_arity_exact.2 m halt [] (some 4) rfl rfl
  exact ⟨rfl, hcall, (hfault cause).mpr hcall, hhalted.mpr hhalt⟩

end RegisterMachine
