import RegisterMachine.Program.Basic

/-!
# The lines that instructions come from

The lines of a program text are numbered before they are read, and a line that holds no instruction
is dropped afterwards.  So an instruction carries the number of the line whose tokens it is made of,
and the numbers increase from one instruction to the next, whatever stands between the two.
-/

namespace RegisterMachine

/-- The instruction carries the number of one of the lines, counted from `first`, and is made of the
tokens of that line. -/
structure Instruction.StandsOn (i : Instruction) (lines : List (List Char)) (first : Nat)
    (number : Nat) : Prop where
  line_eq : i.line = some number
  first_le : first ≤ number
  tokens_eq : ∃ line, lines[number - first]? = some line ∧
    Text.tokens line = i.opcode :: i.operands

/-- Both instructions come from a text, the first from an earlier line. -/
def Instruction.Before (i j : Instruction) : Prop :=
  ∃ a b, i.line = some a ∧ j.line = some b ∧ a < b

theorem Instruction.StandsOn.cons {i : Instruction} {lines : List (List Char)} {first number : Nat}
    (h : i.StandsOn lines (first + 1) number) (line : List Char) :
    i.StandsOn (line :: lines) first number := by
  have hle := h.first_le
  refine ⟨h.line_eq, by omega, ?_⟩
  have hsub : number - first = number - (first + 1) + 1 := by omega
  rw [hsub, List.getElem?_cons_succ]
  exact h.tokens_eq

namespace SourceLine

/-- A line that starts with no dot is an instruction; it is not refused where it is read once
more. -/
theorem parse_of_plain {number : Nat} {line : List Char} {opcode : String} {operands : List String}
    (ht : Text.tokens line = opcode :: operands) (plain : opcode.toList.head? ≠ some '.') :
    parse number line = .ok (instruction ⟨opcode, operands, some number⟩) := by
  have hline : Instruction.parseLine number (String.ofList line) =
      .ok (some ⟨opcode, operands, some number⟩) := by
    unfold Instruction.parseLine
    rw [String.toList_ofList, ht]
    exact if_neg plain
  unfold parse
  rw [ht]
  simp only
  split
  · rename_i directive hd
    rw [hd] at plain
    exact absurd rfl plain
  · rw [hline]
    rfl

/-- What is read from one line is an instruction only if it is made of the tokens of the line. -/
theorem parse_eq_instruction {number : Nat} {line : List Char} {i : Instruction}
    (h : parse number line = .ok (instruction i)) :
    i.line = some number ∧ Text.tokens line = i.opcode :: i.operands := by
  cases ht : Text.tokens line with
  | nil => simp only [parse, ht] at h; cases h
  | cons first rest =>
    by_cases hfirst : first.toList.head? = some '.'
    · obtain ⟨directive, hd⟩ := List.head?_eq_some_iff.mp hfirst
      simp only [parse, ht, hd] at h
      cases hp : Declaration.parse number (String.ofList directive) rest with
      | error cause => rw [hp] at h; cases h
      | ok d => rw [hp] at h; cases h
    · rw [parse_of_plain ht hfirst] at h
      cases h
      exact ⟨rfl, rfl⟩

theorem instruction?_eq_some {s : SourceLine} {i : Instruction} (h : s.instruction? = some i) :
    s = instruction i := by
  cases s with
  | blank => cases h
  | declaration d => cases h
  | instruction j => cases h; rfl

def parseAll (first : Nat) (lines : List (List Char)) : Except Cause (List SourceLine) :=
  (lines.zipIdx first).mapM fun (line, number) => parse number line

theorem parseAll_cons {first : Nat} {line : List Char} {rest : List (List Char)}
    {parsed : List SourceLine} (h : parseAll first (line :: rest) = .ok parsed) :
    ∃ s tail, parse first line = .ok s ∧ parseAll (first + 1) rest = .ok tail ∧
      parsed = s :: tail := by
  unfold parseAll at h ⊢
  rw [List.zipIdx_cons, List.mapM_cons] at h
  cases hs : parse first line with
  | error cause => simp only [hs] at h; cases h
  | ok s =>
    simp only [hs] at h
    cases ht : (rest.zipIdx (first + 1)).mapM fun (line, number) => parse number line with
    | error cause => rw [ht] at h; cases h
    | ok tail =>
      rw [ht] at h
      cases h
      exact ⟨s, tail, rfl, rfl, rfl⟩

theorem standsOn_of_parseAll {first : Nat} {lines : List (List Char)} {parsed : List SourceLine}
    (h : parseAll first lines = .ok parsed) :
    ∀ i ∈ parsed.filterMap instruction?, ∃ number, i.StandsOn lines first number := by
  induction lines generalizing first parsed with
  | nil =>
    cases h
    intro i hi
    cases hi
  | cons line rest ih =>
    obtain ⟨s, tail, hs, ht, rfl⟩ := parseAll_cons h
    intro i hmem
    obtain ⟨s', hs', hi⟩ := List.mem_filterMap.mp hmem
    rcases List.mem_cons.mp hs' with rfl | htail
    · rw [instruction?_eq_some hi] at hs
      obtain ⟨hl, htokens⟩ := parse_eq_instruction hs
      refine ⟨first, hl, Nat.le_refl first, line, ?_, htokens⟩
      rw [Nat.sub_self]
      rfl
    · obtain ⟨number, hn⟩ := ih ht i (List.mem_filterMap.mpr ⟨s', htail, hi⟩)
      exact ⟨number, hn.cons line⟩

theorem pairwise_before_of_parseAll {first : Nat} {lines : List (List Char)}
    {parsed : List SourceLine} (h : parseAll first lines = .ok parsed) :
    (parsed.filterMap instruction?).Pairwise Instruction.Before := by
  induction lines generalizing first parsed with
  | nil =>
    cases h
    exact List.Pairwise.nil
  | cons line rest ih =>
    obtain ⟨s, tail, hs, ht, rfl⟩ := parseAll_cons h
    rw [List.filterMap_cons]
    cases hi : s.instruction? with
    | none => exact ih ht
    | some i =>
      rw [instruction?_eq_some hi] at hs
      refine List.Pairwise.cons (fun j hj => ?_) (ih ht)
      -- All that follow are counted from the next line on.
      obtain ⟨number, hn⟩ := standsOn_of_parseAll ht j hj
      exact ⟨first, number, (parse_eq_instruction hs).1, hn.line_eq, hn.first_le⟩

end SourceLine

theorem Program.parse_eq_ok {source : String} {program : Program}
    (h : Program.parse source = .ok program) :
    ∃ parsed, SourceLine.parseAll 1 (Text.lines source.toList) = .ok parsed ∧
      program = ⟨parsed.filterMap SourceLine.declaration?,
        parsed.filterMap SourceLine.instruction?⟩ := by
  unfold Program.parse at h
  cases hp : SourceLine.parseAll 1 (Text.lines source.toList) with
  | error cause =>
    unfold SourceLine.parseAll at hp
    rw [hp] at h
    cases h
  | ok parsed =>
    unfold SourceLine.parseAll at hp
    rw [hp] at h
    cases h
    exact ⟨parsed, rfl, rfl⟩

end RegisterMachine
