import RegisterMachine.Proofs.Builtin.Opcode
import RegisterMachine.Proofs.Builtin.Plan
import RegisterMachine.Proofs.Machine.Dispatch

/-!
# A built-in instruction commits as a whole or not at all

`run_eq_error` and `run_eq_ok` read a run off the plan: a refused instruction leaves the context as
it was, and an accepted one writes at most its destination, a register that was there.  On a machine
whose operators are the built-in ones, an instruction that faults or is skipped therefore leaves all
registers alone.
-/

namespace RegisterMachine
namespace Builtin

theorem run_eq_error {i : Builtin} {operands : List String} {context after : Context}
    {cause : Cause} (h : i.run operands context = .error cause after) :
    i.plan operands context.registers = .error cause ∧ after = context := by
  rw [run_eq_plan] at h
  cases hp : i.plan operands context.registers with
  | ok effect => rw [hp] at h; cases h
  | error cause' => rw [hp] at h; cases h; exact ⟨rfl, rfl⟩

theorem run_eq_ok {i : Builtin} {operands : List String} {context after : Context}
    (h : i.run operands context = .ok () after) :
    ∃ effect, i.plan operands context.registers = .ok effect ∧
      after = effect.apply context := by
  rw [run_eq_plan] at h
  cases hp : i.plan operands context.registers with
  | ok effect => rw [hp] at h; cases h; exact ⟨effect, rfl, rfl⟩
  | error cause => rw [hp] at h; cases h

@[simp] theorem control_apply_registers (i : Builtin) (context : Context) :
    (i.control.apply context).registers = context.registers := by
  unfold control
  by_cases h : i = halt
  · rw [if_pos h]; rfl
  · rw [if_neg h]; rfl

/-- What a plan that succeeds leaves of the registers. -/
theorem apply_registers {i : Builtin} {operands : List String} {effect : Effect}
    (context : Context) (h : i.plan operands context.registers = .ok effect) :
    Bank.SameBut operands.head? context.registers (effect.apply context).registers ∧
      match i.kinds? with
      | none => (effect.apply context).registers = context.registers
      | some (k, _) =>
        ∃ target, operands.head? = some target ∧ context.registers.contains k target = true := by
  obtain ⟨hk, rfl⟩ | ⟨k, source, target, tokens, w, hk, rfl, hc, rfl⟩ := plan_eq_ok h
  · simp [hk, Bank.SameBut.refl]
  · rw [hk]
    exact ⟨Bank.sameBut_write _ _ _, target, rfl, hc⟩

end Builtin

namespace Machine

theorem operatorFor_of_builtins {m : Machine} (hm : m.operators = .builtins) (i : Instruction) :
    m.operatorFor i =
      match Builtin.ofOpcode? i.opcode with
      | none => .error (.unknownOpcode i.opcode)
      | some b =>
        if b.arity.accepts i.operands.length then .ok b.operator
        else .error (b.arity.mismatch i.opcode i.operands.length) := by
  rw [operatorFor_eq, hm, Registry.get?_builtins]
  cases Builtin.ofOpcode? i.opcode with
  | none => rfl
  | some b => rfl

theorem exists_builtin_of_operatorFor {m : Machine} (hm : m.operators = .builtins)
    {i : Instruction} {op : Operator} (h : m.operatorFor i = .ok op) :
    ∃ b : Builtin, op = b.operator := by
  rw [operatorFor_of_builtins hm] at h
  cases hb : Builtin.ofOpcode? i.opcode with
  | none => rw [hb] at h; cases h
  | some b =>
    cases ha : b.arity.accepts i.operands.length with
    | false => simp [hb, ha] at h
    | true =>
      simp only [hb, ha, if_true, Except.ok.injEq] at h
      exact ⟨b, h.symm⟩

/-- An instruction whose operator is built in is planned on the registers and then committed. -/
theorem execute_of_operator {m : Machine} {i : Instruction} {b : Builtin}
    (h : m.operatorFor i = .ok b.operator) :
    m.execute i =
      match b.plan i.operands m.registers with
      | .error cause => ({ m with profile := m.profile.add b.category b.cost }, .error cause)
      | .ok effect =>
        let context := effect.apply { registers := m.registers }
        ({ m with profile := m.profile.add b.category b.cost, registers := context.registers },
          .ok context.halting) := by
  unfold execute
  simp only [h, Builtin.operator, Builtin.run_eq_plan]
  cases b.plan i.operands m.registers with
  | error cause => rfl
  | ok effect => rfl

theorem execute_result {m : Machine} {i : Instruction} {b : Builtin}
    (h : m.operatorFor i = .ok b.operator) :
    (m.execute i).2 = (b.plan i.operands m.registers).map fun effect =>
      (effect.apply { registers := m.registers }).halting := by
  rw [execute_of_operator h]
  cases b.plan i.operands m.registers with
  | error cause => rfl
  | ok effect => rfl

/-- What the built-in operators make of an instruction: its opcode is unknown, the number of its
operands is refused, or it has an operator. -/
theorem execute_of_builtins {m : Machine} (hm : m.operators = .builtins) (i : Instruction) :
    (Builtin.ofOpcode? i.opcode = none ∧ m.execute i = (m, .error (.unknownOpcode i.opcode))) ∨
    ∃ b : Builtin, Builtin.ofOpcode? i.opcode = some b ∧
      ((b.arity.accepts i.operands.length = false ∧
          m.execute i = (m, .error (b.arity.mismatch i.opcode i.operands.length))) ∨
        b.arity.accepts i.operands.length = true ∧ m.operatorFor i = .ok b.operator) := by
  have ho := operatorFor_of_builtins hm i
  cases hb : Builtin.ofOpcode? i.opcode with
  | none =>
    rw [hb] at ho
    exact .inl ⟨rfl, by simp only [execute, ho]⟩
  | some b =>
    refine .inr ⟨b, rfl, ?_⟩
    cases ha : b.arity.accepts i.operands.length with
    | false =>
      rw [hb] at ho
      simp only [ha, Bool.false_eq_true, if_false] at ho
      exact .inl ⟨rfl, by simp only [execute, ho]⟩
    | true =>
      rw [hb] at ho
      simp only [ha, if_true] at ho
      exact .inr ⟨rfl, ho⟩

theorem execute_error_registers {m m' : Machine} (hm : m.operators = .builtins)
    {i : Instruction} {cause : Cause} (h : m.execute i = (m', .error cause)) :
    m'.registers = m.registers := by
  obtain ⟨-, he⟩ | ⟨b, -, ⟨-, he⟩ | ⟨-, ho⟩⟩ := execute_of_builtins hm i
  · rw [he] at h
    cases h
    rfl
  · rw [he] at h
    cases h
    rfl
  · rw [execute_of_operator ho] at h
    cases hp : b.plan i.operands m.registers with
    | error cause' => rw [hp] at h; cases h; rfl
    | ok effect => rw [hp] at h; cases h

/-- An instruction leaves all registers alone but the one that its first operand names. -/
theorem execute_sameBut {m : Machine} (hm : m.operators = .builtins) (i : Instruction) :
    Bank.SameBut i.operands.head? m.registers (m.execute i).1.registers := by
  obtain ⟨-, he⟩ | ⟨b, -, ⟨-, he⟩ | ⟨-, ho⟩⟩ := execute_of_builtins hm i
  · rw [he]
    exact .refl _ _
  · rw [he]
    exact .refl _ _
  · rw [execute_of_operator ho]
    cases hp : b.plan i.operands m.registers with
    | error cause => exact .refl _ _
    | ok effect => exact (Builtin.apply_registers { registers := m.registers } hp).1

theorem dispatch_sameBut {m : Machine} (hm : m.operators = .builtins) (i : Instruction) :
    Bank.SameBut i.operands.head? m.registers (m.dispatch i).1.registers := by
  by_cases hs : m.status = .running
  · rw [dispatch_registers_of_running hs]
    exact execute_sameBut hm i
  · rw [dispatch_of_stopped hs]
    exact .refl _ _

theorem dispatch_registers_of_not_executed {m : Machine} (hm : m.operators = .builtins)
    {i : Instruction} (h : (m.dispatch i).2 = .faulted ∨ (m.dispatch i).2 = .skipped) :
    (m.dispatch i).1.registers = m.registers := by
  by_cases hs : m.status = .running
  · obtain ⟨m', -, hd⟩ | ⟨m', -, hd⟩ | ⟨m', cause, he, hd⟩ := dispatch_of_running hs i
    · simp [hd] at h
    · simp [hd] at h
    · have hr := execute_error_registers hm he
      rw [hd]
      exact hr
  · rw [dispatch_of_stopped hs]

end Machine

/-- A built-in instruction that is refused changes nothing and requests nothing.  One that succeeds
keeps all names and changes at most the register that its first operand names, which was there with
the kind that the instruction writes; the control instructions change no register. -/
theorem Builtin.run_all_or_nothing :
    (∀ (i : Builtin) (operands : List String) (context : Context),
      match i.run operands context with
      | .error _ after => after = context
      | .ok _ after =>
        Bank.SameBut operands.head? context.registers after.registers ∧
          match i.kinds? with
          | none => after.registers = context.registers
          | some (k, _) =>
            ∃ target, operands.head? = some target ∧
              context.registers.contains k target = true) ∧
    ∀ (m : Machine) (i : Instruction), m.operators = .builtins →
      ((m.dispatch i).2 = .faulted ∨ (m.dispatch i).2 = .skipped) →
        (m.dispatch i).1.registers = m.registers := by
  refine ⟨fun i operands context => ?_,
    fun m i hm h => Machine.dispatch_registers_of_not_executed hm h⟩
  cases h : i.run operands context with
  | error cause after => exact (run_eq_error h).2
  | ok u after =>
    obtain ⟨effect, hp, rfl⟩ := run_eq_ok h
    exact apply_registers context hp

/-- A division by zero is refused after its destination and its operands are found. -/
theorem Builtin.run_all_or_nothing_division :
    let m : Machine := { registers := Bank.ofPoints [("a", .int 7)], operators := .builtins }
    (m.dispatch ⟨"DIV", ["a", "0"], none⟩).2 = .faulted ∧
      (m.dispatch ⟨"DIV", ["a", "0"], none⟩).1.registers = m.registers := by
  intro m
  have hf : (m.dispatch ⟨"DIV", ["a", "0"], none⟩).2 = .faulted := by decide +kernel
  exact ⟨hf, run_all_or_nothing.2 m ⟨"DIV", ["a", "0"], none⟩ rfl (.inl hf)⟩

end RegisterMachine
