import RegisterMachine.Proofs.Program.Grammar
import RegisterMachine.Proofs.Text.Layout

/-!
# The written form of an instruction

The written form is one layout of the opcode and the operands, so it is read back as the instruction
exactly if these are tokens and the opcode is not taken for a directive.  Whatever is read from a
line is made of tokens, so its written form is a normal form of the line.
-/

namespace RegisterMachine

namespace Instruction

/-- The opcode and the operands can stand on a line as they are. -/
structure WellFormed (i : Instruction) : Prop where
  opcode : Text.IsToken i.opcode
  operands : ∀ o ∈ i.operands, Text.IsToken o
  plain : i.opcode.toList.head? ≠ some '.'

theorem WellFormed.layout_text {i : Instruction} (h : i.WellFormed) :
    Text.Layout (i.opcode :: i.operands) i.text.toList := by
  have hgap : Text.IsGap ", ".toList := ⟨by decide, List.all_eq_true.1 rfl⟩
  have hoperands := Text.layout_intercalate hgap h.operands
  unfold text
  cases hi : i.operands with
  | nil => exact .single h.opcode
  | cons o os =>
    rw [hi] at hoperands
    rw [String.toList_append, String.toList_append, List.append_assoc]
    exact .token h.opcode (Text.endsToken_cons (.inl rfl) _) (.separator rfl hoperands)

/-- An instruction is read from a line if it is made of the tokens of the line and the first of them
is not a directive. -/
theorem parseLine_eq_some_iff {n : Nat} {line : String} {i : Instruction} :
    parseLine n line = .ok (some i) ↔
      Text.tokens line.toList = i.opcode :: i.operands ∧ i.opcode.toList.head? ≠ some '.' ∧
        i.line = some n := by
  obtain ⟨opcode, operands, number⟩ := i
  unfold parseLine
  cases Text.tokens line.toList with
  | nil => simp
  | cons first rest =>
    by_cases hp : first.toList.head? = some '.'
    · simp only [hp, if_true]
      constructor
      · intro h
        cases h
      · rintro ⟨ht, hplain, -⟩
        cases ht
        exact absurd hp hplain
    · simp only [hp, if_false]
      constructor
      · intro h
        cases h
        exact ⟨rfl, hp, rfl⟩
      · rintro ⟨ht, -, hn⟩
        cases ht
        cases hn
        rfl

theorem wellFormed_of_tokens {i : Instruction} {line : List Char}
    (ht : Text.tokens line = i.opcode :: i.operands) (hp : i.opcode.toList.head? ≠ some '.') :
    i.WellFormed := by
  have htoken := (Text.tokens_eq_iff_layout.mp ht).isToken
  obtain ⟨hopcode, hoperands⟩ := List.forall_mem_cons.mp htoken
  exact ⟨hopcode, hoperands, hp⟩

theorem parseLine_text_iff (i : Instruction) (n : Nat) :
    parseLine n i.text = .ok (some { i with line := some n }) ↔ i.WellFormed := by
  rw [parseLine_eq_some_iff]
  constructor
  · rintro ⟨ht, hp, -⟩
    exact wellFormed_of_tokens ht hp
  · intro h
    exact ⟨h.layout_text.tokens_eq, h.plain, rfl⟩

theorem WellFormed.parseLine_text {i : Instruction} (h : i.WellFormed) {n : Nat}
    (hn : i.line = some n) : parseLine n i.text = .ok (some i) := by
  rw [(parseLine_text_iff i n).mpr h, ← hn]

theorem wellFormed_of_parseLine {n : Nat} {line : String} {i : Instruction}
    (h : parseLine n line = .ok (some i)) : i.WellFormed ∧ i.line = some n := by
  obtain ⟨ht, hp, hn⟩ := parseLine_eq_some_iff.mp h
  exact ⟨wellFormed_of_tokens ht hp, hn⟩

end Instruction

namespace SourceLine

theorem wellFormed_of_form {number : Nat} {line : List Char} {i : Instruction}
    (h : Form number (Text.tokens line) (.instruction i)) :
    i.WellFormed ∧ i.line = some number := by
  generalize ht : Text.tokens line = tokens at h
  cases h with
  | instruction operands plain => exact ⟨Instruction.wellFormed_of_tokens ht plain, rfl⟩

theorem exists_form_of_parseAll {first : Nat} {lines : List (List Char)} {said : List SourceLine}
    (h : parseAll first lines = .ok said) :
    ∀ s ∈ said, ∃ number line, Form number (Text.tokens line) s := by
  induction lines generalizing first said with
  | nil =>
    cases h
    simp
  | cons line rest ih =>
    obtain ⟨s, tail, hs, ht, rfl⟩ := parseAll_cons h
    exact List.forall_mem_cons.mpr ⟨⟨first, line, parse_eq_ok_iff.mp hs⟩, ih ht⟩

end SourceLine

theorem Program.wellFormed_of_parse {source : String} {program : Program}
    (h : parse source = .ok program) :
    ∀ i ∈ program.instructions, i.WellFormed ∧ ∃ n, i.line = some n := by
  obtain ⟨said, hsaid, rfl⟩ := parse_eq_ok h
  intro i hi
  obtain ⟨s, hs, hsome⟩ := List.mem_filterMap.mp hi
  rw [SourceLine.instruction?_eq_some hsome] at hs
  obtain ⟨number, line, hform⟩ := SourceLine.exists_form_of_parseAll hsaid _ hs
  obtain ⟨hw, hn⟩ := SourceLine.wellFormed_of_form hform
  exact ⟨hw, number, hn⟩

/-- The written form of an instruction is read back as the same instruction exactly if the opcode
and the operands are tokens and the opcode is no directive.  So it is with everything that is read
from a line or from a program text, and its written form is then a normal form. -/
theorem Instruction.text_round_trip :
    (∀ (i : Instruction) (n : Nat),
      parseLine n i.text = .ok (some { i with line := some n }) ↔ i.WellFormed) ∧
    (∀ (n : Nat) (line : String) (i : Instruction), parseLine n line = .ok (some i) →
      i.WellFormed ∧ parseLine n i.text = .ok (some i)) ∧
    ∀ (source : String) (program : Program), Program.parse source = .ok program →
      ∀ i ∈ program.instructions, i.WellFormed ∧
        ∃ n, i.line = some n ∧ parseLine n i.text = .ok (some i) := by
  refine ⟨parseLine_text_iff, ?_, ?_⟩
  · intro n line i h
    obtain ⟨hw, hn⟩ := wellFormed_of_parseLine h
    exact ⟨hw, hw.parseLine_text hn⟩
  · intro source program h i hi
    obtain ⟨hw, n, hn⟩ := Program.wellFormed_of_parse h i hi
    exact ⟨hw, n, hn, hw.parseLine_text hn⟩

/-- A line with a tab, a no-break space, two commas and a comment, by itself and in a text. -/
theorem Instruction.text_round_trip_padded :
    let line := "\tADD\u00a0 a,,-7 # less"
    let source := ".int a 1\n" ++ line ++ "\r\nHALT"
    let i : Instruction := ⟨"ADD", ["a", "-7"], some 2⟩
    i.text = "ADD a, -7" ∧ parseLine 2 line = .ok (some i) ∧
      parseLine 2 "ADD a, -7" = .ok (some i) ∧
      ∃ program n, Program.parse source = .ok program ∧ i ∈ program.instructions ∧
        i.line = some n ∧ parseLine n "ADD a, -7" = .ok (some i) := by
  intro line source i
  have htext : i.text = "ADD a, -7" := by decide +kernel
  have hline : parseLine 2 line = .ok (some i) := by decide +kernel
  have hsource : Program.parse source =
      .ok ⟨[⟨"a", .int 1, 1⟩], [i, ⟨"HALT", [], some 3⟩]⟩ := by decide +kernel
  have hmem : i ∈ [i, ⟨"HALT", [], some 3⟩] := List.mem_cons_self
  obtain ⟨-, hread⟩ := text_round_trip.2.1 2 line i hline
  obtain ⟨-, n, hn, hread'⟩ := text_round_trip.2.2 source _ hsource i hmem
  rw [htext] at hread hread'
  exact ⟨htext, hline, hread, _, n, hsource, hmem, hn, hread'⟩

end RegisterMachine
