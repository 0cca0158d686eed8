import RegisterMachine.Proofs.Machine.Budget

/-!
# The two accounts of a run

The cost of a run is paid before each dispatch and goes by the opcode alone.  The profile is written
by the dispatch itself, once the operator has accepted the number of operands and before it acts,
so an operator that fails is in both accounts.  What the dispatcher refuses on its own, `Refuses`,
is in the first account only, and since such a refusal stops the machine it can only be the last
instruction of a run.
-/

namespace RegisterMachine
namespace Registry

/-- The operator of an instruction whose opcode is known and whose number of operands it accepts. -/
def admit? (r : Registry) (i : Instruction) : Option Operator :=
  (r.get? i.opcode).filter fun op => op.arity.accepts i.operands.length

def admits (r : Registry) (i : Instruction) : Bool :=
  (r.admit? i).isSome

/-- Whether the instruction is booked in the category, whatever becomes of it. -/
def books (r : Registry) (c : Category) (i : Instruction) : Bool :=
  (r.admit? i).any fun op => op.category = c

/-- The dispatcher itself refuses the instruction, before any operator runs. -/
inductive Refuses (r : Registry) (i : Instruction) : Cause → Prop
  | unknown (absent : r.get? i.opcode = none) (free : r.price i = 0) :
      Refuses r i (.unknownOpcode i.opcode)
  | arity {op : Operator} (known : r.get? i.opcode = some op)
      (rejected : op.arity.accepts i.operands.length = false) :
      Refuses r i (op.arity.mismatch i.opcode i.operands.length)

theorem price_of_admit? {r : Registry} {i : Instruction} {op : Operator}
    (h : r.admit? i = some op) : r.price i = op.cost := by
  have hg : r.get? i.opcode = some op := (Option.filter_eq_some_iff.mp h).1
  rw [price, hg]
  rfl

theorem Refuses.not_admits {r : Registry} {i : Instruction} {cause : Cause}
    (h : r.Refuses i cause) : r.admits i = false := by
  unfold admits admit?
  cases h with
  | unknown absent free => rw [absent]; rfl
  | arity known rejected => rw [known]; simp [rejected]

/-- Every admitted instruction is booked in one category and no other instruction in any. -/
theorem flatMap_books_perm (r : Registry) (is : List Instruction) :
    (Category.all.flatMap fun c => is.filter (r.books c)).Perm (is.filter r.admits) := by
  -- By counting, since the categories follow each other and not the program.
  rw [List.perm_iff_count]
  intro i
  have hf : ∀ p : Instruction → Bool, (is.filter p).count i = if p i then is.count i else 0 := by
    intro p
    cases hp : p i with
    | true => exact List.count_filter hp
    | false =>
      refine List.count_eq_zero.mpr fun hi => ?_
      rw [(List.mem_filter.mp hi).2] at hp
      cases hp
  simp only [List.count_flatMap, Function.comp_def, hf]
  cases h : r.admit? i with
  | none => simp [books, admits, h, Category.all]
  | some op => cases hc : op.category <;> simp [books, admits, h, hc, Category.all]

end Registry

namespace Machine

theorem operatorFor_cases (m : Machine) (i : Instruction) :
    (∃ op, m.operators.admit? i = some op ∧ m.operatorFor i = .ok op) ∨
      ∃ cause, m.operators.Refuses i cause ∧ m.operatorFor i = .error cause := by
  rw [operatorFor_eq, Registry.admit?]
  cases hg : m.operators.get? i.opcode with
  | none =>
    refine .inr ⟨_, .unknown hg ?_, rfl⟩
    rw [Registry.price, hg]
    rfl
  | some op =>
    cases ha : op.arity.accepts i.operands.length with
    | true => exact .inl ⟨op, by simp [ha], if_pos ha⟩
    | false => exact .inr ⟨_, .arity hg ha, if_neg (by simp [ha])⟩

/-- An instruction that the dispatcher refuses stops the machine for the cause of the refusal and
changes nothing else. -/
theorem dispatch_of_refused {m : Machine} (hs : m.status = .running) {i : Instruction}
    {cause : Cause} (h : m.operatorFor i = .error cause) :
    (m.dispatch i).1 = { m with status := .errored ⟨i.opcode, i.line, cause⟩ } := by
  have he := execute_of_refused h
  obtain ⟨m', he', hd⟩ | ⟨m', he', hd⟩ | ⟨m', cause', he', hd⟩ := dispatch_of_running hs i <;>
    rw [he] at he' <;> cases he'
  rw [hd]

theorem execute_profile {m : Machine} {i : Instruction} {op : Operator}
    (h : m.operatorFor i = .ok op) :
    (m.execute i).1.profile = m.profile.add op.category op.cost := by
  simp only [execute, h]
  cases op.run i.operands { registers := m.registers } with
  | ok u context => rfl
  | error cause context => rfl

theorem dispatch_profile_of_running {m : Machine} (h : m.status = .running) (i : Instruction) :
    (m.dispatch i).1.profile = (m.execute i).1.profile := by
  obtain ⟨m', he, hd⟩ | ⟨m', he, hd⟩ | ⟨m', cause, he, hd⟩ := dispatch_of_running h i <;>
    rw [he, hd]

theorem dispatch_profile_get {m : Machine} (hs : m.status = .running) (i : Instruction)
    (c : Category) :
    (m.dispatch i).1.profile.get c =
      if m.operators.books c i then m.profile.get c + m.operators.price i
      else m.profile.get c := by
  obtain ⟨op, ha, ho⟩ | ⟨cause, hr, ho⟩ := m.operatorFor_cases i
  · rw [dispatch_profile_of_running hs, execute_profile ho, Registry.price_of_admit? ha]
    by_cases hc : c = op.category
    · subst hc
      simp [Registry.books, ha]
    · simp [Registry.books, ha, hc, Ne.symm hc]
  · have hb : m.operators.books c i = false := by
      have hn := hr.not_admits
      rw [Registry.admits, Option.isSome_eq_false_iff, Option.isNone_iff_eq_none] at hn
      rw [Registry.books, hn]
      rfl
    rw [dispatch_of_refused hs ho, hb]
    rfl

theorem admits_of_running {m : Machine} {i : Instruction}
    (h : (m.dispatch i).1.status = .running) : m.operators.admits i = true := by
  have hs : m.status = .running := by
    apply Decidable.byContradiction
    intro hs
    rw [dispatch_of_stopped hs] at h
    exact hs h
  obtain ⟨op, ha, -⟩ | ⟨cause, -, ho⟩ := m.operatorFor_cases i
  · rw [Registry.admits, ha]
    rfl
  · rw [dispatch_of_refused hs ho] at h
    cases h

end Machine

namespace Progress
namespace Advances

variable {steps : Option Nat} {p q : Progress} {done : List Instruction}

theorem profile_get (h : Advances steps p done q) (c : Category) :
    q.machine.profile.get c =
      p.machine.operators.spend (p.machine.profile.get c)
        (done.filter (p.machine.operators.books c)) := by
  induction h with
  | refl p => rfl
  | @next p p' q i rest running paid onward ih =>
    have hm := (advance?_eq_some paid).machine
    rw [ih, hm, Machine.dispatch_operators, Machine.dispatch_profile_get running, List.filter_cons]
    cases p.machine.operators.books c i with
    | true => rfl
    | false => rfl

/-- Every instruction of a run but the last is admitted, since the machine went on after it. -/
theorem admits_dropLast {before : List Instruction} {i : Instruction}
    (h : Advances steps p (before ++ [i]) q) :
    ∀ j ∈ before, p.machine.operators.admits j = true := by
  intro j hj
  obtain ⟨front, back, rfl⟩ := List.append_of_mem hj
  obtain ⟨k, tail, hk⟩ : ∃ k tail, back ++ [i] = k :: tail :=
    List.exists_cons_of_ne_nil (by simp)
  have hsplit : front ++ j :: back ++ [i] = (front ++ [j]) ++ k :: tail := by
    rw [← hk]
    simp
  rw [hsplit] at h
  -- Something was dispatched after `j`, so the machine was running then.
  have hrun := h.running_before
  rw [Machine.dispatchAll_append] at hrun
  have ha := Machine.admits_of_running (m := (p.machine.dispatchAll front).1) (i := j) hrun
  simpa using ha

/-- The last instruction of a run is admitted, or the machine has stopped for its refusal. -/
theorem last_admits_or_refused {before : List Instruction} {i : Instruction}
    (h : Advances steps p (before ++ [i]) q) :
    p.machine.operators.admits i = true ∨
      ∃ cause, p.machine.operators.Refuses i cause ∧
        q.machine.status = .errored ⟨i.opcode, i.line, cause⟩ := by
  have hrun := h.running_before
  have hq : q.machine = ((p.machine.dispatchAll before).1.dispatch i).1 := by
    rw [h.machine_eq, Machine.dispatchAll_append]
    rfl
  obtain ⟨op, ha, -⟩ | ⟨cause, hr, ho⟩ := (p.machine.dispatchAll before).1.operatorFor_cases i
  · rw [Machine.dispatchAll_operators] at ha
    left
    rw [Registry.admits, ha]
    rfl
  · rw [Machine.dispatchAll_operators] at hr
    refine .inr ⟨cause, hr, ?_⟩
    rw [hq, Machine.dispatch_of_refused hrun ho]

end Advances
end Progress

namespace Machine

/-- The two accounts of a run on `m` that has dispatched the instructions and ended in `m'`: what it
cost, what is in the profile, and how the instructions in one compare with those in the other. -/
structure Reconciled (m : Machine) (dispatched : List Instruction) (m' : Machine) (cost : Float) :
    Prop where
  cost_eq : cost = m.operators.spend 0 dispatched
  profile_eq : ∀ c, m'.profile.get c =
    m.operators.spend (m.profile.get c) (dispatched.filter (m.operators.books c))
  /-- The categories together hold the instructions that were admitted, each of them once. -/
  booked_perm : (Category.all.flatMap fun c => dispatched.filter (m.operators.books c)).Perm
    (dispatched.filter m.operators.admits)
  all_but_last : dispatched.filter m.operators.admits = dispatched ∨
    ∃ i, dispatched = dispatched.filter m.operators.admits ++ [i]
  unbooked_iff : ∀ i, dispatched = dispatched.filter m.operators.admits ++ [i] ↔
    dispatched.getLast? = some i ∧
      ∃ cause, m.operators.Refuses i cause ∧ m'.status = .errored ⟨i.opcode, i.line, cause⟩

theorem filter_admits_of_advances {m : Machine} {start : Nat} {limits : Limits}
    {done : List Instruction} {q : Progress}
    (h : Progress.Advances limits.steps (m.begun start limits) done q) :
    done.filter m.operators.admits = done ∨
      ∃ i cause, done = done.filter m.operators.admits ++ [i] ∧ m.operators.Refuses i cause ∧
        q.machine.status = .errored ⟨i.opcode, i.line, cause⟩ := by
  rcases List.eq_nil_or_concat done with rfl | ⟨before, i, rfl⟩
  · exact .inl rfl
  · rw [List.concat_eq_append] at h ⊢
    have hbefore : before.filter m.operators.admits = before :=
      List.filter_eq_self.mpr h.admits_dropLast
    rw [List.filter_append, hbefore]
    obtain ha | ⟨cause, hr, hs⟩ := h.last_admits_or_refused
    · left
      have ha : m.operators.admits i = true := ha
      simp [ha]
    · right
      refine ⟨i, cause, ?_, hr, hs⟩
      have hn : m.operators.admits i = false := hr.not_admits
      simp [hn]

theorem reconciled_of_advances {m : Machine} {start : Nat} {limits : Limits}
    {done : List Instruction} {q : Progress}
    (h : Progress.Advances limits.steps (m.begun start limits) done q) :
    Reconciled m done q.machine q.meter.used := by
  refine ⟨h.used_eq, h.profile_get, m.operators.flatMap_books_perm done, ?_, ?_⟩
  · obtain hall | ⟨i, -, hlast, -, -⟩ := filter_admits_of_advances h
    · exact .inl hall
    · exact .inr ⟨i, hlast⟩
  · intro i
    obtain hall | ⟨j, cause, hlast, hr, hs⟩ := filter_admits_of_advances h
    · rw [hall]
      constructor
      · intro e
        have hlen := congrArg List.length e
        rw [List.length_append, List.length_singleton] at hlen
        omega
      · rintro ⟨hl, cause, hr, -⟩
        have hadmits := List.filter_eq_self.mp hall i (List.mem_of_getLast? hl)
        rw [hr.not_admits] at hadmits
        cases hadmits
    · have hj : done.getLast? = some j := by rw [hlast, List.getLast?_concat]
      constructor
      · intro e
        have hone : [j] = [i] := List.append_cancel_left (hlast.symm.trans e)
        obtain rfl : j = i := List.singleton_inj.mp hone
        exact ⟨hj, cause, hr, hs⟩
      · rintro ⟨hl, -⟩
        obtain rfl : j = i := Option.some.inj (hj.symm.trans hl)
        exact hlast

/-- The run of a program that ends where the run of a longer one has stopped. -/
theorem runFrom_take {m : Machine} {program : Program} {start : Nat} {limits : Limits}
    {done rest : List Instruction} {q : Progress}
    (hi : program.instructions.drop start = done ++ rest)
    (ha : Progress.Advances limits.steps (m.begun start limits) done q) :
    let cut := { program with instructions := program.instructions.take (start + done.length) }
    (m.runFrom cut start limits).1 = q.machine ∧
      (m.runFrom cut start limits).2.cost = q.meter.used := by
  intro cut
  have hcut : cut.instructions.drop start = done ++ [] := by
    show (program.instructions.take (start + done.length)).drop start = done ++ []
    rw [List.drop_take, hi, Nat.add_sub_cancel_left, List.take_left, List.append_nil]
  rw [runFrom_of_advances hcut ha, drop_next_of_advances hcut ha]
  exact ⟨rfl, rfl⟩

/-- The cost of a run and the profile of its machine are sums over the same instructions, in the
order of the program, but for a last instruction that the dispatcher refused.  Instructions that
were not paid for might as well not be in the program, and those that are skipped are not booked. -/
theorem runFrom_reconciled (m : Machine) (program : Program) (start : Nat) (limits : Limits) :
    let after := m.runFrom program start limits
    let cut := { program with instructions := program.instructions.take after.2.next }
    Reconciled m (program.instructions.extract start after.2.next) after.1 after.2.cost ∧
      (m.runFrom cut start limits).1 = after.1 ∧
      (m.runFrom cut start limits).2.cost = after.2.cost ∧
      ∀ i, (m.dispatch i).2 = .skipped → (m.dispatch i).1.profile = m.profile := by
  intro after cut
  obtain ⟨done, rest, q, outcome, hi, ha, -, hr⟩ := runFrom_spec m program start limits
  have hx := (Program.ranges_of_drop_eq hi).1
  obtain ⟨hm, hc⟩ := runFrom_take hi ha
  simp only [after, cut, hr, hx]
  refine ⟨reconciled_of_advances ha, hm, hc, fun i hskip => ?_⟩
  rw [dispatch_of_stopped (dispatch_eq_skipped_iff.mp hskip)]

/-- A program whose last instruction lacks an operand has paid for it without booking it, and a
machine that has stopped there skips what is dispatched next. -/
theorem runFrom_reconciled_missing_operand :
    let m : Machine := { registers := Bank.ofPoints [("a", .int 1)], operators := .builtins }
    let program : Program := ⟨[], [⟨"MUL", ["a", "7"], none⟩, ⟨"ADD", ["a"], none⟩]⟩
    let after := m.runFrom program 0 .unlimited
    Reconciled m program.instructions after.1 8 ∧ after.1.profile.get .arithmetic = 5 ∧
      (after.1.dispatch ⟨"NOP", [], none⟩).2 = .skipped ∧
      (after.1.dispatch ⟨"NOP", [], none⟩).1.profile = after.1.profile := by
  intro m program after
  have hr : after.2 = ⟨.errored, 2, 8, 2⟩ := by decide +kernel
  have hs : (after.1.dispatch ⟨"NOP", [], none⟩).2 = .skipped := by decide +kernel
  have h := (runFrom_reconciled m program 0 .unlimited).1
  rw [show m.runFrom program 0 .unlimited = (after.1, after.2) from rfl, hr] at h
  exact ⟨h, by decide +kernel, hs,
    (runFrom_reconciled after.1 program 0 .unlimited).2.2.2 _ hs⟩

end Machine
end RegisterMachine
