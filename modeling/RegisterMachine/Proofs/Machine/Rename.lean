import RegisterMachine.Proofs.Bank.Provision
import RegisterMachine.Proofs.Bank.Rename
import RegisterMachine.Proofs.Machine.Locality

/-!
# Names of registers have no meaning

A machine whose registers are renamed, running a program whose operands are renamed with them, does
what it did before under the new names.  Each layer follows the renaming by the layer below: the
plan of an instruction by the resolution of its operands, its effect by the write, and the dispatch
by both.  Prices and limits never see a name, so the two machines go in lock step.  The conditions
of `Renaming` are about the names of the bank, which an instruction does not change, so they hold
throughout a run once they hold at its start.
-/

namespace RegisterMachine

variable {f : String → String} {tokens : List String} {b b' : Bank}

/-! ## Instructions -/

def Builtin.Effect.rename (f : String → String) : Builtin.Effect → Builtin.Effect
  | idle => idle
  | halt => halt
  | store name value => store (f name) value

def Builtin.renamePlan (f : String → String) (plan : Except Cause Builtin.Effect) :
    Except Cause Builtin.Effect :=
  (plan.map (Builtin.Effect.rename f)).mapError (Cause.rename f)

theorem Computation.plan_rename (h : Bank.Renaming f tokens b b') (c : Computation)
    {target : String} {operands : List String} (ht : target ∈ tokens) (ho : operands ⊆ tokens) :
    c.plan b' (f target) (operands.map f) =
      Builtin.renamePlan f (c.plan b target operands) := by
  unfold plan
  rw [h.destination ht, h.resolveAll ho]
  cases b.destination c.target target with
  | error cause => rfl
  | ok seed =>
    cases b.resolveAll c.source operands with
    | error cause => rfl
    | ok words =>
      have hseed : (Except.ok seed).mapError (Cause.rename f) = .ok seed := rfl
      have hwords : (Except.ok words).mapError (Cause.rename f) = .ok words := rfl
      rw [hseed, hwords]
      simp only [bind, Except.bind]
      cases c.result? seed words with
      | some result => rfl
      | none => rfl

namespace Builtin

theorem plan_rename (h : Bank.Renaming f tokens b b') (i : Builtin) {operands : List String}
    (ho : operands ⊆ tokens) :
    i.plan (operands.map f) b' = renamePlan f (i.plan operands b) := by
  have hlength : (operands.map f).length = operands.length := List.length_map f
  cases ha : i.arity.accepts operands.length with
  | false =>
    have ha' : i.arity.accepts (operands.map f).length = false := by rw [hlength]; exact ha
    rw [plan_of_not_accepts ha, plan_of_not_accepts ha', hlength]
    rfl
  | true =>
    have ha' : i.arity.accepts (operands.map f).length = true := by rw [hlength]; exact ha
    obtain ⟨hc, rfl, hp⟩ | ⟨c, target, rest, hc, rfl, hp⟩ := plan_of_accepts ha
    · have hidle : i.control.rename f = i.control := by
        unfold control
        by_cases hi : i = halt
        · rw [if_pos hi]; rfl
        · rw [if_neg hi]; rfl
      show i.plan [] b' = _
      rw [hp, hp]
      show _ = Except.ok (i.control.rename f)
      rw [hidle]
    · obtain ⟨hc', -, -⟩ | ⟨c', target', rest', hc', ho', hp'⟩ := plan_of_accepts ha'
      · rw [hc] at hc'
        cases hc'
      · obtain rfl : c = c' := Option.some.inj (hc.symm.trans hc')
        rw [List.map_cons] at ho'
        cases ho'
        rw [hp', hp]
        exact c.plan_rename h (ho List.mem_cons_self)
          fun t hm => ho (List.mem_cons_of_mem target hm)

/-- The effect of a plan on the renamed registers; what is written was there before. -/
theorem apply_rename (h : Bank.Renaming f tokens b b') {i : Builtin} {operands : List String}
    {effect : Effect} (hp : i.plan operands b = .ok effect) :
    Bank.Renaming f tokens (effect.apply { registers := b }).registers
        ((effect.rename f).apply { registers := b' }).registers ∧
      ((effect.rename f).apply { registers := b' }).halting =
        (effect.apply { registers := b }).halting := by
  obtain ⟨-, rfl⟩ | ⟨k, source, target, rest, w, -, -, hc, rfl⟩ := plan_eq_ok hp
  · unfold control
    by_cases hi : i = halt
    · rw [if_pos hi]; exact ⟨h, rfl⟩
    · rw [if_neg hi]; exact ⟨h, rfl⟩
  · refine ⟨h.write ?_, rfl⟩
    simpa using hc

end Builtin

def Instruction.rename (f : String → String) (i : Instruction) : Instruction :=
  { i with operands := i.operands.map f }

def Program.rename (f : String → String) (p : Program) : Program :=
  { p with instructions := p.instructions.map (Instruction.rename f) }

def Fault.rename (f : String → String) (fault : Fault) : Fault :=
  { fault with cause := fault.cause.rename f }

def Status.rename (f : String → String) : Status → Status
  | running => running
  | halted => halted
  | errored fault => errored (fault.rename f)

@[simp] theorem Status.isRunning_rename (f : String → String) (s : Status) :
    (s.rename f).isRunning = s.isRunning := by
  cases s <;> rfl

@[simp] theorem Status.outcome?_rename (f : String → String) (s : Status) :
    (s.rename f).outcome? = s.outcome? := by
  cases s <;> rfl

@[simp] theorem Status.name_rename (f : String → String) (s : Status) :
    (s.rename f).name = s.name := by
  cases s <;> rfl

theorem Status.halt?_rename (f : String → String) (s : Status) :
    (s.rename f).halt?.getD (s.rename f) = (s.halt?.getD s).rename f := by
  cases s <;> rfl

theorem Status.fail?_rename (f : String → String) (s : Status) (fault : Fault) :
    ((s.rename f).fail? (fault.rename f)).getD (s.rename f) =
      ((s.fail? fault).getD s).rename f := by
  cases s <;> rfl

/-! ## Machines -/

namespace Machine

/-- Two machines with the built-in operators, of which the second has the registers of the first
under new names; so does the fault, if there is one. -/
structure Renamed (f : String → String) (tokens : List String) (m m' : Machine) : Prop where
  builtins : m.operators = .builtins
  operators : m'.operators = m.operators
  status : m'.status = m.status.rename f
  profile : m'.profile = m.profile
  registers : Bank.Renaming f tokens m.registers m'.registers

variable {m m' : Machine}

/-- What the dispatcher itself refuses has nothing to do with registers. -/
theorem rename_of_operatorFor_error {i : Instruction} {cause : Cause}
    (h : m.operatorFor i = .error cause) : cause.rename f = cause := by
  rw [operatorFor_eq] at h
  cases hg : m.operators.get? i.opcode with
  | none => rw [hg] at h; cases h; rfl
  | some op =>
    simp only [hg] at h
    by_cases ha : op.arity.accepts i.operands.length = true
    · rw [if_pos ha] at h
      cases h
    · rw [if_neg ha] at h
      cases h
      rfl

namespace Renamed

theorem operatorFor (h : Renamed f tokens m m') (i : Instruction) :
    m'.operatorFor (i.rename f) = m.operatorFor i := by
  rw [operatorFor_eq, operatorFor_eq, h.operators]
  simp only [Instruction.rename, List.length_map]

theorem execute (h : Renamed f tokens m m') {i : Instruction} (hi : i.operands ⊆ tokens) :
    (m'.execute (i.rename f)).2 = (m.execute i).2.mapError (Cause.rename f) ∧
      Renamed f tokens (m.execute i).1 (m'.execute (i.rename f)).1 := by
  have hop := h.operatorFor i
  cases ho : m.operatorFor i with
  | error cause =>
    rw [execute_of_refused ho, execute_of_refused (hop.trans ho)]
    refine ⟨?_, h⟩
    show _ = Except.error (cause.rename f)
    rw [rename_of_operatorFor_error ho]
  | ok op =>
    obtain ⟨i', rfl⟩ := exists_builtin_of_operatorFor h.builtins ho
    have hplan : i'.plan (i.rename f).operands m'.registers =
        Builtin.renamePlan f (i'.plan i.operands m.registers) := i'.plan_rename h.registers hi
    rw [execute_of_operator ho, execute_of_operator (hop.trans ho), hplan, h.profile]
    cases hp : i'.plan i.operands m.registers with
    | error cause => exact ⟨rfl, { h with profile := rfl }⟩
    | ok effect =>
      obtain ⟨hr, hh⟩ := Builtin.apply_rename h.registers hp
      exact ⟨congrArg Except.ok hh, { h with profile := rfl, registers := hr }⟩

theorem halt (h : Renamed f tokens m m') : Renamed f tokens m.halt m'.halt :=
  { h with status := by simp only [Machine.halt, h.status, Status.halt?_rename] }

theorem fail (h : Renamed f tokens m m') (fault : Fault) :
    Renamed f tokens (m.fail fault) (m'.fail (fault.rename f)) :=
  { h with status := by simp only [Machine.fail, h.status, Status.fail?_rename] }

theorem dispatch (h : Renamed f tokens m m') {i : Instruction} (hi : i.operands ⊆ tokens) :
    Renamed f tokens (m.dispatch i).1 (m'.dispatch (i.rename f)).1 := by
  obtain ⟨hr, hm⟩ := h.execute hi
  unfold Machine.dispatch
  rw [h.status, Status.isRunning_rename]
  cases m.status.isRunning with
  | false => exact h
  | true =>
    generalize m.execute i = x, m'.execute (i.rename f) = x' at hr hm ⊢
    obtain ⟨n, result⟩ := x
    obtain ⟨n', result'⟩ := x'
    obtain rfl : result' = result.mapError (Cause.rename f) := hr
    match result with
    | .ok false => exact hm
    | .ok true => exact Renamed.halt hm
    | .error cause => exact Renamed.fail hm ⟨i.opcode, i.line, cause⟩

end Renamed

/-! ## Runs -/

theorem lockstep_renamed {is : List Instruction} (hi : ∀ i ∈ is, i.operands ⊆ tokens) :
    Lockstep (Renamed f tokens) (Instruction.rename f) is where
  outcome h := by simp [h.status]
  cost h i := by
    unfold costOf?
    rw [h.operators]
    rfl
  dispatch h i hmem := h.dispatch (hi i hmem)

theorem Renamed.runFrom {program : Program} {start : Nat}
    (h : Renamed f (program.tokensFrom start) m m') (limits : Limits) :
    (m'.runFrom (program.rename f) start limits).2 = (m.runFrom program start limits).2 ∧
      Renamed f (program.tokensFrom start) (m.runFrom program start limits).1
        (m'.runFrom (program.rename f) start limits).1 := by
  have hl : Lockstep (Renamed f (program.tokensFrom start)) (Instruction.rename f)
      (program.instructions.drop start) :=
    lockstep_renamed fun i hmem t ht => List.mem_flatMap.mpr ⟨i, hmem, ht⟩
  exact hl.runFrom h rfl limits

theorem runFrom_eq_of_stopped (h : m.status ≠ .running) (program : Program) (start : Nat)
    (limits : Limits) :
    m.runFrom program start limits = (m, ⟨m.status.outcome?.getD .completed, 0, 0, start⟩) := by
  obtain ⟨done, rest, q, outcome, -, ha, he, hr⟩ := runFrom_spec m program start limits
  cases ha with
  | next running paid onward => exact absurd running h
  | refl =>
    cases he with
    | stopped stop =>
      have stop : m.status.outcome? = some outcome := stop
      rw [hr, stop]
      rfl
    | completed running => exact absurd running h
    | refused running unpaid => exact absurd running h

theorem runFrom_declares (hm : m.operators = .builtins) (program : Program) (start : Nat)
    (limits : Limits) (name : String) :
    (m.runFrom program start limits).1.registers.declares name = m.registers.declares name := by
  have hn := dispatchAll_naming hm
    (program.instructions.extract start (m.runFrom program start limits).2.next)
  rw [← (exactRun_runFrom m program start limits).machine_eq] at hn
  exact congrArg Option.isSome (congrFun hn name)

/-- A run under new names, when operands are replaced where they name a register. -/
theorem runFrom_translate {r : String → String} {renamed : Bank} (hm : m.operators = .builtins)
    (hs : m.status = .running) {program : Program} {start : Nat}
    (hr : m.registers.InjectiveOn r)
    (ht : ∀ t ∈ program.tokensFrom start, m.registers.declares t = false →
      ∀ name, m.registers.declares name = true → t ≠ r name)
    (hb : Bank.Renamed r m.registers renamed) (limits : Limits) :
    let f := m.registers.translate r
    let m' : Machine := { m with registers := renamed }
    let after := m.runFrom program start limits
    let after' := m'.runFrom (program.rename f) start limits
    after'.2 = after.2 ∧ after'.1.status = after.1.status.rename f ∧
      after'.1.profile = after.1.profile ∧
      Bank.Renamed r after.1.registers after'.1.registers := by
  intro f m' after after'
  have hstatus : m'.status = m.status.rename f := by
    show m.status = _
    rw [hs]
    rfl
  have hstart : Renamed f (program.tokensFrom start) m m' :=
    ⟨hm, rfl, hstatus, rfl, .translate hb hr ht⟩
  obtain ⟨hreport, hend⟩ := hstart.runFrom limits
  refine ⟨hreport, hend.status, hend.profile, hend.registers.renamed.congr fun name hn => ?_⟩
  rw [runFrom_declares hm] at hn
  exact Bank.translate_of_declares hn

/-- A run under new names, which are valid.  No bijection is asked for: two registers must not get
one name, and no operand that names no register may turn into a name.  The renamed machine reports
the same, ends in the same state with the same profile, and holds under each new name what the other
holds under the old one; where the run meets a fault, it is the same fault under the new names. -/
theorem runFrom_equivariant {r : String → String} (hm : m.operators = .builtins)
    {program : Program} {start : Nat} (hr : m.registers.InjectiveOn r)
    (hv : ∀ name, m.registers.declares name = true → isRegisterName (r name) = true)
    (ht : ∀ t ∈ program.tokensFrom start, m.registers.declares t = false →
      ∀ name, m.registers.declares name = true → t ≠ r name) (limits : Limits) :
    let f := m.registers.translate r
    let m' : Machine := { m with registers := m.registers.rename r hr hv }
    let after := m.runFrom program start limits
    let after' := m'.runFrom (program.rename f) start limits
    after'.2 = after.2 ∧ after'.1.status.name = after.1.status.name ∧
      after'.1.profile = after.1.profile ∧
      (∃ hr' hv', after'.1.registers = after.1.registers.rename r hr' hv') ∧
      (∀ name, m.registers.declares name = true →
        after'.1.registers.lookup? (r name) = after.1.registers.lookup? name) ∧
      ∀ fault, m.status = .running → after.1.status = .errored fault →
        ∃ fault', after'.1.status = .errored fault' ∧ fault'.opcode = fault.opcode ∧
          fault'.line = fault.line ∧ fault'.cause = fault.cause.rename f ∧
          fault'.cause.label = fault.cause.label := by
  intro f m' after after'
  have hdeclares : ∀ name, after.1.registers.declares name = m.registers.declares name :=
    runFrom_declares hm program start limits
  have hinj : after.1.registers.InjectiveOn r := hr.of_declares hdeclares
  have hb := Bank.renamed_rename hr hv
  by_cases hs : m.status = .running
  · obtain ⟨hreport, hstatus, hprofile, hregisters⟩ := runFrom_translate hm hs hr ht hb limits
    refine ⟨hreport, ?_, hprofile, ⟨hinj, fun name hn => ?_, ?_⟩, fun name hn => ?_,
      fun fault _ hfault => ?_⟩
    · rw [show after'.1.status = _ from hstatus, Status.name_rename]
    · rw [hdeclares] at hn
      exact hv name hn
    · exact hregisters.unique (Bank.renamed_rename hinj _)
    · exact hregisters.lookup? hinj ((hdeclares name).trans hn)
    · refine ⟨fault.rename f, ?_, rfl, rfl, rfl, fault.cause.label_rename f⟩
      rw [show after'.1.status = _ from hstatus, show after.1.status = _ from hfault]
      rfl
  · -- A machine that has stopped before is not run, and its fault is not the run's.
    have hs' : m'.status ≠ .running := hs
    have hafter : after = _ := runFrom_eq_of_stopped hs program start limits
    have hafter' : after' = _ := runFrom_eq_of_stopped hs' (program.rename f) start limits
    rw [hafter, hafter']
    exact ⟨rfl, rfl, rfl, ⟨hr, hv, rfl⟩, fun name hn => hb.lookup? hr hn,
      fun fault hrun => absurd hrun hs⟩

/-- The float register `7` hides the number from an integer addition, and under the name `a`, which
was that of the destination, it still does. -/
theorem runFrom_equivariant_hidden_number :
    let r : String → String := fun name => if name = "a" then "x" else "a"
    let m : Machine :=
      { registers := Bank.ofPoints [("a", .int 1), ("7", .float 2.5)]
        operators := .builtins }
    let program : Program := ⟨[], [⟨"ADD", ["a", "5"], some 1⟩, ⟨"ADD", ["a", "7"], some 2⟩]⟩
    ∃ renamed, Bank.Renamed r m.registers renamed ∧
      let m' : Machine := { m with registers := renamed }
      let after' := m'.runFrom (program.rename (m.registers.translate r)) 0 .unlimited
      after'.2.outcome = .errored ∧ after'.1.registers.lookup? "x" = some (.int 6) ∧
        ∃ fault, after'.1.status = .errored fault ∧ fault.line = some 2 ∧
          fault.cause = .noSuchRegister .int "a" := by
  intro r m program
  have hd : ∀ name, m.registers.declares name = true → name = "a" ∨ name = "7" := by
    intro name hn
    obtain ⟨k, hk⟩ := Option.isSome_iff_exists.mp hn
    simpa using Bank.mem_of_kindOf?_ofPoints hk
  have hr : m.registers.InjectiveOn r := by
    intro a c ha hc he
    obtain rfl | rfl := hd a ha <;> obtain rfl | rfl := hd c hc <;> revert he <;> decide
  have hv : ∀ name, m.registers.declares name = true → isRegisterName (r name) = true := by
    intro name hn
    obtain rfl | rfl := hd name hn <;> decide +kernel
  have ht : ∀ t ∈ program.tokensFrom 0, m.registers.declares t = false →
      ∀ name, m.registers.declares name = true → t ≠ r name := by
    intro t ht hu name hn
    have ha : t ≠ "a" := by
      rintro rfl
      revert hu
      decide +kernel
    have hx : t ≠ "x" := by
      rintro rfl
      revert ht
      decide
    obtain rfl | rfl := hd name hn
    · exact hx
    · exact ha
  have hfault : (m.runFrom program 0 .unlimited).1.status =
      .errored ⟨"ADD", some 2, .noSuchRegister .int "7"⟩ := by decide +kernel
  obtain ⟨hreport, -, -, -, hlookup, hfaults⟩ :=
    runFrom_equivariant (m := m) rfl hr hv ht Limits.unlimited
  obtain ⟨fault, hs, -, hl, hc, -⟩ := hfaults _ rfl hfault
  have hx := hlookup "a" (by decide +kernel)
  refine ⟨_, Bank.renamed_rename hr hv, ?_, hx.trans (by decide +kernel), fault, hs, hl, hc.trans (by decide +kernel)⟩
  rw [hreport]
  decide +kernel

end Machine
end RegisterMachine
