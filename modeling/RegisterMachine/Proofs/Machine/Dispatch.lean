import RegisterMachine.Machine.Basic

/-!
# Dispatching instructions one after another

`dispatch_of_running` says everything that the dispatch of one instruction can do.  `dispatchAll` is
the plain meaning of a list of instructions: each is dispatched in turn, without limits and without
looking at what became of it.  A machine that has stopped skips all that follow.
-/

namespace RegisterMachine
namespace Machine

theorem operatorFor_eq (m : Machine) (i : Instruction) :
    m.operatorFor i =
      match m.operators.get? i.opcode with
      | none => .error (.unknownOpcode i.opcode)
      | some op =>
        if op.arity.accepts i.operands.length then .ok op
        else .error (op.arity.mismatch i.opcode i.operands.length) := by
  unfold operatorFor Arity.check
  cases m.operators.get? i.opcode with
  | none => rfl
  | some op =>
    show (ite (op.arity.accepts i.operands.length = true) _ _ >>= fun _ => Except.ok op) =
      ite (op.arity.accepts i.operands.length = true) _ _
    cases op.arity.accepts i.operands.length with
    | false => rfl
    | true => rfl

/-- An operator acts on the registers and on the profile, never on the rest of the machine. -/
theorem execute_frame (m : Machine) (i : Instruction) :
    ∃ registers profile,
      (m.execute i).1 = { m with registers := registers, profile := profile } := by
  unfold execute
  cases m.operatorFor i with
  | error cause => exact ⟨m.registers, m.profile, rfl⟩
  | ok op =>
    cases h : op.run i.operands { registers := m.registers } with
    | ok u context => exact ⟨context.registers, m.profile.add op.category op.cost, by simp only [h]⟩
    | error cause context =>
      exact ⟨context.registers, m.profile.add op.category op.cost, by simp only [h]⟩

@[simp] theorem execute_status (m : Machine) (i : Instruction) :
    (m.execute i).1.status = m.status := by
  obtain ⟨registers, profile, he⟩ := execute_frame m i
  rw [he]

@[simp] theorem execute_operators (m : Machine) (i : Instruction) :
    (m.execute i).1.operators = m.operators := by
  obtain ⟨registers, profile, he⟩ := execute_frame m i
  rw [he]

theorem execute_of_refused {m : Machine} {i : Instruction} {cause : Cause}
    (h : m.operatorFor i = .error cause) : m.execute i = (m, .error cause) := by
  simp only [execute, h]

theorem dispatch_of_stopped {m : Machine} (h : m.status ≠ .running) (i : Instruction) :
    m.dispatch i = (m, .skipped) := by
  unfold dispatch
  cases hs : m.status with
  | running => exact absurd hs h
  | halted => rfl
  | errored fault => rfl

theorem halt_of_running {m : Machine} (h : m.status = .running) :
    m.halt = { m with status := .halted } := by
  rw [halt, h]
  rfl

theorem fail_of_running {m : Machine} (h : m.status = .running) (f : Fault) :
    m.fail f = { m with status := .errored f } := by
  rw [fail, h]
  rfl

/-- Everything that the dispatch of an instruction on a running machine can do. -/
theorem dispatch_of_running {m : Machine} (h : m.status = .running) (i : Instruction) :
    (∃ m', m.execute i = (m', .ok false) ∧ m.dispatch i = (m', .executed)) ∨
    (∃ m', m.execute i = (m', .ok true) ∧
      m.dispatch i = ({ m' with status := .halted }, .halted)) ∨
    (∃ m' cause, m.execute i = (m', .error cause) ∧
      m.dispatch i = ({ m' with status := .errored ⟨i.opcode, i.line, cause⟩ }, .faulted)) := by
  have hs := (execute_status m i).trans h
  unfold dispatch
  rw [h]
  cases he : m.execute i with
  | mk m' result =>
    rw [he] at hs
    cases result with
    | error cause =>
      refine .inr (.inr ⟨m', cause, rfl, ?_⟩)
      rw [← fail_of_running hs]
      rfl
    | ok halting =>
      cases halting with
      | false => exact .inl ⟨m', rfl, rfl⟩
      | true =>
        refine .inr (.inl ⟨m', rfl, ?_⟩)
        rw [← halt_of_running hs]
        rfl

theorem dispatch_registers_of_running {m : Machine} (h : m.status = .running) (i : Instruction) :
    (m.dispatch i).1.registers = (m.execute i).1.registers := by
  obtain ⟨m', he, hd⟩ | ⟨m', he, hd⟩ | ⟨m', cause, he, hd⟩ := dispatch_of_running h i <;>
    rw [he, hd]

@[simp] theorem dispatch_operators (m : Machine) (i : Instruction) :
    (m.dispatch i).1.operators = m.operators := by
  by_cases h : m.status = .running
  · have ho := execute_operators m i
    obtain ⟨m', he, hd⟩ | ⟨m', he, hd⟩ | ⟨m', cause, he, hd⟩ := dispatch_of_running h i <;>
      · rw [he] at ho
        rw [hd]
        exact ho
  · rw [dispatch_of_stopped h]

/-- An instruction is skipped exactly when the machine has stopped before it. -/
@[simp] theorem dispatch_eq_skipped_iff {m : Machine} {i : Instruction} :
    (m.dispatch i).2 = .skipped ↔ m.status ≠ .running := by
  by_cases h : m.status = .running
  · obtain ⟨m', -, hd⟩ | ⟨m', -, hd⟩ | ⟨m', cause, -, hd⟩ := dispatch_of_running h i <;>
      simp [hd, h]
  · simp [dispatch_of_stopped h, h]

/-- An instruction is executed exactly when the machine runs after it. -/
theorem dispatch_eq_executed_iff {m : Machine} {i : Instruction} :
    (m.dispatch i).2 = .executed ↔ (m.dispatch i).1.status = .running := by
  by_cases h : m.status = .running
  · have hs := execute_status m i
    obtain ⟨m', he, hd⟩ | ⟨m', he, hd⟩ | ⟨m', cause, he, hd⟩ := dispatch_of_running h i
    · rw [he, h] at hs
      simpa [hd] using hs
    · simp [hd]
    · simp [hd]
  · simp [dispatch_of_stopped h, h]

def dispatchAll (m : Machine) : List Instruction → Machine × List Step
  | [] => (m, [])
  | i :: rest =>
    let after := (m.dispatch i).1.dispatchAll rest
    (after.1, (m.dispatch i).2 :: after.2)

theorem dispatchAll_append (m : Machine) (xs ys : List Instruction) :
    m.dispatchAll (xs ++ ys) =
      (((m.dispatchAll xs).1.dispatchAll ys).1,
        (m.dispatchAll xs).2 ++ ((m.dispatchAll xs).1.dispatchAll ys).2) := by
  induction xs generalizing m with
  | nil => rfl
  | cons i rest ih => simp only [List.cons_append, dispatchAll, ih]

theorem dispatchAll_of_stopped {m : Machine} (h : m.status ≠ .running) (is : List Instruction) :
    m.dispatchAll is = (m, List.replicate is.length .skipped) := by
  induction is with
  | nil => rfl
  | cons i rest ih =>
    simp only [dispatchAll, dispatch_of_stopped h, ih, List.length_cons, List.replicate_succ]

@[simp] theorem dispatchAll_operators (m : Machine) (is : List Instruction) :
    (m.dispatchAll is).1.operators = m.operators := by
  induction is generalizing m with
  | nil => rfl
  | cons i rest ih => exact (ih (m.dispatch i).1).trans (dispatch_operators m i)

@[simp] theorem dispatchAll_length (m : Machine) (is : List Instruction) :
    (m.dispatchAll is).2.length = is.length := by
  induction is generalizing m with
  | nil => rfl
  | cons i rest ih => simp only [dispatchAll, List.length_cons, ih]

end Machine
end RegisterMachine
