import RegisterMachine.Proofs.Machine.Run
import RegisterMachine.Proofs.Program.SourceLine

/-!
# The line of a fault

A run that ends with a fault ends at the instruction just before `next`, and the fault is made of
the opcode and the line of that instruction.  For a program that was read from a text this is the
number of a line of the text, and the tokens of that line are the instruction.
-/

namespace RegisterMachine
namespace Machine

theorem dispatch_errored {m : Machine} (h : m.status = .running) {i : Instruction} {fault : Fault}
    (hf : (m.dispatch i).1.status = .errored fault) :
    ∃ cause, fault = ⟨i.opcode, i.line, cause⟩ := by
  obtain ⟨m', he, hd⟩ | ⟨m', he, hd⟩ | ⟨m', cause, he, hd⟩ := dispatch_of_running h i
  · -- An executed instruction leaves the machine running.
    have hr := dispatch_eq_executed_iff.mp (show (m.dispatch i).2 = .executed by rw [hd])
    rw [hr] at hf
    cases hf
  · rw [hd] at hf
    cases hf
  · rw [hd] at hf
    cases hf
    exact ⟨cause, rfl⟩

/-- A run that ends with a fault has dispatched the instruction that the fault tells of last. -/
theorem runFrom_errored {m : Machine} (h : m.status = .running) {program : Program} {start : Nat}
    {limits : Limits} (he : (m.runFrom program start limits).2.outcome = .errored) :
    ∃ k i cause, (m.runFrom program start limits).2.next = k + 1 ∧
      program.instructions[k]? = some i ∧
      (m.runFrom program start limits).1.status = .errored ⟨i.opcode, i.line, cause⟩ := by
  obtain ⟨fault, hf⟩ := (exactRun_runFrom m program start limits).errored_iff.mp he
  obtain ⟨done, rest, q, outcome, hi, ha, -, hr⟩ := runFrom_spec m program start limits
  rw [hr] at hf ⊢
  have hq : q.machine = (m.dispatchAll done).1 := ha.machine_eq
  rcases List.eq_nil_or_concat done with rfl | ⟨before, i, rfl⟩
  · -- With nothing dispatched the machine would still be running.
    have hq' : q.machine = m := hq
    rw [hq', h] at hf
    cases hf
  · rw [List.concat_eq_append] at hi ha hq
    have hrun : (m.dispatchAll before).1.status = .running := ha.running_before
    have hlast : q.machine = ((m.dispatchAll before).1.dispatch i).1 := by
      rw [hq, dispatchAll_append]
      rfl
    obtain ⟨cause, rfl⟩ := dispatch_errored hrun (hlast ▸ hf)
    refine ⟨start + before.length, i, cause, ?_, ?_, hf⟩
    · show start + (before.concat i).length = start + before.length + 1
      rw [List.length_concat]
      omega
    · rw [← List.getElem?_drop, hi, List.append_assoc, List.getElem?_append_right (Nat.le_refl _),
        Nat.sub_self]
      rfl

/-- Every fault of a program that was read from a text is traced to its line. -/
theorem runFrom_fault_line {source : String} {program : Program}
    (hp : Program.parse source = .ok program) :
    program.instructions.Pairwise Instruction.Before ∧
    ∀ (m : Machine) (start : Nat) (limits : Limits), m.status = .running →
      (m.runFrom program start limits).2.outcome = .errored →
      ∃ fault n line i,
        (m.runFrom program start limits).1.status = .errored fault ∧
        fault.line = some n ∧ 1 ≤ n ∧ n ≤ (Text.lines source.toList).length ∧
        (Text.lines source.toList)[n - 1]? = some line ∧
        1 ≤ (m.runFrom program start limits).2.next ∧
        program.instructions[(m.runFrom program start limits).2.next - 1]? = some i ∧
        Text.tokens line = i.opcode :: i.operands ∧ fault.opcode = i.opcode ∧
        (m.runFrom program start limits).1.status.reasoning? =
          some ("line " ++ toString n ++ ": " ++ i.opcode ++ ": " ++ fault.cause.message) := by
  obtain ⟨parsed, hparsed, rfl⟩ := Program.parse_eq_ok hp
  refine ⟨SourceLine.pairwise_before_of_parseAll hparsed, ?_⟩
  intro m start limits hm he
  obtain ⟨k, i, cause, hnext, hi, hs⟩ := runFrom_errored hm he
  obtain ⟨n, hn⟩ := SourceLine.standsOn_of_parseAll hparsed i (List.mem_of_getElem? hi)
  obtain ⟨line, hline, htokens⟩ := hn.tokens_eq
  have hone := hn.first_le
  have hlt : n - 1 < (Text.lines source.toList).length := (List.getElem?_eq_some_iff.mp hline).1
  refine ⟨_, n, line, i, hs, hn.line_eq, hone, by omega, hline, by omega, ?_, htokens, rfl, ?_⟩
  · rw [hnext, Nat.add_sub_cancel]
    exact hi
  · rw [hs, hn.line_eq]
    rfl

/-- Comments, blank lines and declarations are counted: the division stands on the sixth line. -/
theorem runFrom_fault_line_division :
    let source := "# halves\n.int a 8\n\n  ADD a, 1\n\n\tDIV a, 0\r\nHALT"
    let program : Program := ⟨[⟨"a", .int 8, 2⟩],
      [⟨"ADD", ["a", "1"], some 4⟩, ⟨"DIV", ["a", "0"], some 6⟩, ⟨"HALT", [], some 7⟩]⟩
    let m : Machine := { registers := Bank.ofPoints [("a", .int 8)], operators := .builtins }
    Program.parse source = .ok program ∧
      (m.runFrom program 0 .unlimited).2.outcome = .errored ∧
      ∃ fault line i, (m.runFrom program 0 .unlimited).1.status = .errored fault ∧
        fault.line = some 6 ∧ (Text.lines source.toList)[5]? = some line ∧
        program.instructions[(m.runFrom program 0 .unlimited).2.next - 1]? = some i ∧
        Text.tokens line = i.opcode :: i.operands := by
  intro source program m
  have hp : Program.parse source = .ok program := by
    have ho : (Program.parse source).toOption = some program := by decide +kernel
    cases h : Program.parse source with
    | error cause => rw [h] at ho; cases ho
    | ok p => rw [h] at ho; exact congrArg Except.ok (Option.some.inj ho)
  have he : (m.runFrom program 0 .unlimited).2.outcome = .errored := by decide +kernel
  have hs : (m.runFrom program 0 .unlimited).1.status.fault?.bind Fault.line = some 6 := by
    decide +kernel
  obtain ⟨fault, n, line, i, hf, hn, -, -, hline, -, hi, ht, -⟩ :=
    (runFrom_fault_line hp).2 m 0 .unlimited rfl he
  have hsix : n = 6 := by
    rw [hf] at hs
    exact Option.some.inj (hn.symm.trans hs)
  subst hsix
  exact ⟨hp, he, fault, line, i, hf, hn, hline, hi, ht⟩

end Machine
end RegisterMachine
