import RegisterMachine.Proofs.Program.Grammar
import RegisterMachine.Proofs.Text.Lines

/-!
# Programs that are put together

A program is read line by line, and nothing is carried from one line to the next but the number of
the line.  So a text behind another one is read as if it stood alone, with all its lines moved down
by the number of lines in front of it; the same holds of the line at which it is refused.
-/

namespace RegisterMachine

def Instruction.shift (k : Nat) (i : Instruction) : Instruction :=
  { i with line := i.line.map (· + k) }

def Declaration.shift (k : Nat) (d : Declaration) : Declaration :=
  { d with line := d.line + k }

namespace SourceLine

def shift (k : Nat) : SourceLine → SourceLine
  | blank => blank
  | declaration d => declaration (d.shift k)
  | instruction i => instruction (i.shift k)

@[simp] theorem declaration?_shift (k : Nat) (s : SourceLine) :
    (s.shift k).declaration? = s.declaration?.map (Declaration.shift k) := by
  cases s <;> rfl

@[simp] theorem instruction?_shift (k : Nat) (s : SourceLine) :
    (s.shift k).instruction? = s.instruction?.map (Instruction.shift k) := by
  cases s <;> rfl

theorem filterMap_declaration?_shift (k : Nat) (said : List SourceLine) :
    (said.map (shift k)).filterMap declaration? =
      (said.filterMap declaration?).map (Declaration.shift k) := by
  simp [List.filterMap_map, List.map_filterMap]

theorem filterMap_instruction?_shift (k : Nat) (said : List SourceLine) :
    (said.map (shift k)).filterMap instruction? =
      (said.filterMap instruction?).map (Instruction.shift k) := by
  simp [List.filterMap_map, List.map_filterMap]

/-- The form of a line does not depend on its number. -/
theorem Form.shift {number : Nat} {tokens : List String} {s : SourceLine}
    (h : Form number tokens s) (k : Nat) : Form (number + k) tokens (s.shift k) := by
  cases h with
  | blank => exact .blank
  | instruction operands plain => exact .instruction operands plain
  | declaration kind name => exact .declaration kind name
  | initialised kind name literal => exact .initialised kind name literal

theorem parseAll_shift {first : Nat} {lines : List (List Char)} {said : List SourceLine}
    (h : parseAll first lines = .ok said) (k : Nat) :
    parseAll (first + k) lines = .ok (said.map (shift k)) := by
  induction lines generalizing first said with
  | nil => cases h; rfl
  | cons line rest ih =>
    obtain ⟨s, tail, hs, ht, rfl⟩ := parseAll_cons h
    have hline : parse (first + k) line = .ok (s.shift k) :=
      parse_of_form ((parse_eq_ok_iff.mp hs).shift k)
    have hrest : parseAll (first + k + 1) rest = .ok (tail.map (shift k)) := by
      rw [Nat.add_right_comm]
      exact ih ht
    rw [parseAll_eq_bind, hline, hrest]
    rfl

theorem parseAll_shift_error {first number : Nat} {lines : List (List Char)} {problem : String}
    (h : parseAll first lines = .error (.badLine number problem)) (k : Nat) :
    parseAll (first + k) lines = .error (.badLine (number + k) problem) := by
  obtain ⟨before, line, after, rfl, hb, he⟩ := parseAll_eq_error h
  obtain ⟨problem', hc, hf⟩ := parse_eq_error_iff.mp he
  obtain ⟨rfl, rfl⟩ := Cause.badLine.inj hc
  refine parseAll_of_error hb ?_ after
  rw [parse_of_flaw hf, Nat.add_right_comm]

theorem parseAll_append (first : Nat) (before after : List (List Char)) :
    parseAll first (before ++ after) = (parseAll first before).bind fun said =>
      (parseAll (first + before.length) after).map (said ++ ·) := by
  induction before generalizing first with
  | nil =>
    show parseAll first after = (parseAll first after).map ([] ++ ·)
    cases parseAll first after <;> rfl
  | cons line rest ih =>
    have hlength : first + (line :: rest).length = first + 1 + rest.length := by
      rw [List.length_cons]
      omega
    rw [List.cons_append, parseAll_eq_bind, parseAll_eq_bind, ih, hlength]
    cases parse first line with
    | error cause => rfl
    | ok s =>
      cases parseAll (first + 1) rest with
      | error cause => rfl
      | ok said =>
        cases parseAll (first + 1 + rest.length) after <;> rfl

end SourceLine

namespace Program

open SourceLine

theorem parseAll_lines_append {s : String} (hs : Text.Closed s.toList) (t : String) :
    parseAll 1 (Text.lines (s ++ t).toList) =
      (parseAll 1 (Text.lines s.toList)).bind fun said =>
        (parseAll (1 + (Text.lines s.toList).length) (Text.lines t.toList)).map (said ++ ·) := by
  rw [String.toList_append, Text.lines_append hs, parseAll_append]

/-- Behind a text that is empty or ends in a line feed, a text is read as if it stood alone, but for
the numbers of its lines, which the lines in front of it are added to.  A refusal of the text in
front comes first. -/
theorem parse_append (s t : String) (hs : s = "" ∨ s.toList.getLast? = some '\n') :
    (∀ cause, parse s = .error cause → parse (s ++ t) = .error cause) ∧
    let k := (Text.lines s.toList).length
    (∀ p cause, parse s = .ok p → parse t = .error cause → ∃ line problem,
      cause = .badLine line problem ∧ parse (s ++ t) = .error (.badLine (line + k) problem)) ∧
    ∀ p q, parse s = .ok p → parse t = .ok q → parse (s ++ t) = .ok
      ⟨p.declarations ++ q.declarations.map (Declaration.shift k),
        p.instructions ++ q.instructions.map (Instruction.shift k)⟩ := by
  have hclosed : Text.Closed s.toList := hs.imp_left fun h => by rw [h]; rfl
  have happend := parseAll_lines_append hclosed t
  let k := (Text.lines s.toList).length
  refine ⟨?_, ?_, ?_⟩
  · intro cause h
    rw [parse_eq_error_iff] at h ⊢
    rw [happend, h]
    rfl
  · intro p cause hp ht
    obtain ⟨said, hsaid, -⟩ := parse_eq_ok hp
    obtain ⟨before, line, after, problem, -, -, -, rfl⟩ := exists_flaw_of_error ht
    refine ⟨_, problem, rfl, ?_⟩
    rw [parse_eq_error_iff] at ht ⊢
    rw [happend, hsaid, parseAll_shift_error ht k]
    rfl
  · intro p q hp hq
    obtain ⟨said, hsaid, rfl⟩ := parse_eq_ok hp
    obtain ⟨said', hsaid', rfl⟩ := parse_eq_ok hq
    rw [parse_eq_map, happend, hsaid, parseAll_shift hsaid' k]
    show Except.ok (Program.mk ((said ++ said'.map (shift k)).filterMap declaration?)
      ((said ++ said'.map (shift k)).filterMap instruction?)) = _
    rw [List.filterMap_append, List.filterMap_append, filterMap_declaration?_shift,
      filterMap_instruction?_shift]

/-- The first text has two lines, one of which ends in a carriage return as well. -/
theorem parse_append_refused_line :
    let s := "NOP\r\n.int a 1\n"
    let t := "ADD a, 2\n.word x"
    s.toList.getLast? = some '\n' ∧
      parse t = .error (.badLine 2 "unknown directive `.word`") ∧
      parse (s ++ t) = .error (.badLine 4 "unknown directive `.word`") := by
  intro s t
  have hs : s.toList.getLast? = some '\n' := by decide +kernel
  have hp : parse s = .ok ⟨[⟨"a", .int 1, 2⟩], [⟨"NOP", [], some 1⟩]⟩ := by decide +kernel
  have ht : parse t = .error (.badLine 2 "unknown directive `.word`") := by decide +kernel
  have hk : (Text.lines s.toList).length = 2 := by decide +kernel
  obtain ⟨line, problem, hc, hst⟩ := (parse_append s t (.inr hs)).2.1 _ _ hp ht
  obtain ⟨rfl, rfl⟩ := Cause.badLine.inj hc
  rw [hk] at hst
  exact ⟨hs, ht, hst⟩

end Program
end RegisterMachine
