import Mathlib.Data.List.Forall2
import RegisterMachine.Proofs.Program.SourceLine

/-!
# The grammar of program texts

The forms of a line are given by its tokens alone.  `Form` lists them, with what a line of each form
says, and looks at nothing of how a line is read.  A text is read exactly when each of its lines has
a form, and what is read is then what the lines say, one after another.  A text that is refused is
refused for its first line without a form, and no line after that one has a part in it.
-/

namespace RegisterMachine

def Kind.directive : Kind → String
  | int => ".int"
  | float => ".float"

@[simp] theorem Kind.dot_name (k : Kind) : "." ++ k.name = k.directive := by
  cases k <;> rfl

namespace SourceLine

/-- The forms of a line by its tokens, and what a line with the given number says. -/
inductive Form (number : Nat) : List String → SourceLine → Prop
  | blank : Form number [] .blank
  | instruction {opcode : String} (operands : List String)
      (plain : opcode.toList.head? ≠ some '.') :
      Form number (opcode :: operands) (.instruction ⟨opcode, operands, some number⟩)
  | declaration (k : Kind) (name : String) :
      Form number [k.directive, name] (.declaration ⟨name, .zero k, number⟩)
  | initialised (k : Kind) (name : String) {token : String} {w : k.Word}
      (literal : Literal.word? k token = some w) :
      Form number [k.directive, name, token] (.declaration ⟨name, .ofWord k w, number⟩)

def WellFormed (tokens : List String) : Prop :=
  ∃ number s, Form number tokens s

theorem wellFormed_iff {tokens : List String} (number : Nat) :
    WellFormed tokens ↔ ∃ s, Form number tokens s := by
  constructor
  · rintro ⟨n, s, h⟩
    cases h with
    | blank => exact ⟨_, .blank⟩
    | instruction operands plain => exact ⟨_, .instruction operands plain⟩
    | declaration k name => exact ⟨_, .declaration k name⟩
    | initialised k name literal => exact ⟨_, .initialised k name literal⟩
  · rintro ⟨s, h⟩
    exact ⟨number, s, h⟩

/-- What is wrong with the tokens of a line without a form. -/
inductive Flaw : List String → String → Prop
  | unknownDirective {first : String} (arguments : List String)
      (dotted : first.toList.head? = some '.') (unknown : ∀ k : Kind, first ≠ k.directive) :
      Flaw (first :: arguments) s!"unknown directive `{first}`"
  | argumentCount (k : Kind) {arguments : List String}
      (count : arguments.length ≠ 1 ∧ arguments.length ≠ 2) :
      Flaw (k.directive :: arguments)
        s!"{k.directive} expects NAME [VALUE], got {arguments.length} tokens"
  | invalidLiteral (k : Kind) (name : String) {token : String}
      (literal : Literal.word? k token = none) :
      Flaw [k.directive, name, token] (Cause.invalidLiteral k token).message

end SourceLine

namespace Declaration

theorem parse_of_ne {line : Nat} {directive : String} {arguments : List String}
    (hi : directive ≠ "int") (hf : directive ≠ "float") :
    parse line directive arguments =
      .error (.badLine line s!"unknown directive `.{directive}`") := by
  simp only [parse]
  rfl

@[simp] theorem parse_one (line : Nat) (k : Kind) (name : String) :
    parse line k.name [name] = .ok ⟨name, .zero k, line⟩ := by
  cases k <;> rfl

theorem parse_two (line : Nat) (k : Kind) (name token : String) :
    parse line k.name [name, token] =
      match Value.parse k token with
      | .ok initial => .ok ⟨name, initial, line⟩
      | .error cause => .error (.badLine line cause.message) := by
  cases k <;> rfl

theorem parse_of_literal {line : Nat} {k : Kind} {name token : String} {w : k.Word}
    (h : Literal.word? k token = some w) :
    parse line k.name [name, token] = .ok ⟨name, .ofWord k w, line⟩ := by
  have hv : Value.parse k token = .ok (.ofWord k w) := by
    unfold Value.parse Literal.word
    rw [h]
    rfl
  rw [parse_two, hv]

theorem parse_of_not_literal {line : Nat} {k : Kind} {name token : String}
    (h : Literal.word? k token = none) :
    parse line k.name [name, token] =
      .error (.badLine line (Cause.invalidLiteral k token).message) := by
  have hv : Value.parse k token = .error (.invalidLiteral k token) := by
    unfold Value.parse Literal.word
    rw [h]
    rfl
  rw [parse_two, hv]

theorem parse_of_length {line : Nat} (k : Kind) {arguments : List String}
    (h : arguments.length ≠ 1 ∧ arguments.length ≠ 2) :
    parse line k.name arguments = .error
      (.badLine line s!"{k.directive} expects NAME [VALUE], got {arguments.length} tokens") := by
  have hk : parse line k.name arguments = .error
      (.badLine line s!".{k.name} expects NAME [VALUE], got {arguments.length} tokens") := by
    match arguments with
    | [] => cases k <;> rfl
    | [_] => exact absurd rfl h.1
    | [_, _] => exact absurd rfl h.2
    | _ :: _ :: _ :: _ => cases k <;> rfl
  rw [hk, ← k.dot_name]
  rfl

end Declaration

namespace SourceLine

theorem exists_append_of_dotted {first : String} (h : first.toList.head? = some '.') :
    ∃ directive, first = "." ++ directive := by
  obtain ⟨cs, hcs⟩ := List.head?_eq_some_iff.mp h
  refine ⟨String.ofList cs, String.toList_inj.mp ?_⟩
  rw [hcs, String.toList_append, String.toList_ofList (l := cs)]
  rfl

theorem parse_of_dotted {number : Nat} {line : List Char} {first directive : String}
    {arguments : List String} (ht : Text.tokens line = first :: arguments)
    (hd : "." ++ directive = first) :
    parse number line = (Declaration.parse number directive arguments).map declaration := by
  have hl : first.toList = '.' :: directive.toList := by
    rw [← hd, String.toList_append]
    rfl
  unfold parse
  rw [ht]
  simp only [hl, String.ofList_toList]

/-- A line that has a form is read as what the form says. -/
theorem parse_of_form {number : Nat} {line : List Char} {s : SourceLine}
    (h : Form number (Text.tokens line) s) : parse number line = .ok s := by
  generalize ht : Text.tokens line = tokens at h
  cases h with
  | blank =>
    unfold parse
    rw [ht]
  | instruction operands plain => exact parse_of_plain ht plain
  | declaration k name =>
    rw [parse_of_dotted ht k.dot_name, Declaration.parse_one]
    rfl
  | initialised k name literal =>
    rw [parse_of_dotted ht k.dot_name, Declaration.parse_of_literal literal]
    rfl

theorem parse_of_flaw {number : Nat} {line : List Char} {problem : String}
    (h : Flaw (Text.tokens line) problem) :
    parse number line = .error (.badLine number problem) := by
  generalize ht : Text.tokens line = tokens at h
  cases h with
  | @unknownDirective first arguments dotted unknown =>
    obtain ⟨directive, hd⟩ := exists_append_of_dotted dotted
    have hk (k : Kind) : directive ≠ k.name := by
      rintro rfl
      exact unknown k (hd.trans k.dot_name)
    -- The dot belongs to the text before the directive, and here to the token.
    have hm : s!"unknown directive `.{directive}`" = s!"unknown directive `{first}`" := by
      show "unknown directive `" ++ "." ++ directive ++ "`" = "unknown directive `" ++ first ++ "`"
      rw [hd, ← String.append_assoc]
    rw [parse_of_dotted ht hd.symm, Declaration.parse_of_ne (hk .int) (hk .float), hm]
    rfl
  | argumentCount k count =>
    rw [parse_of_dotted ht k.dot_name, Declaration.parse_of_length k count]
    rfl
  | invalidLiteral k name literal =>
    rw [parse_of_dotted ht k.dot_name, Declaration.parse_of_not_literal literal]
    rfl

theorem form_or_flaw (number : Nat) (tokens : List String) :
    (∃ s, Form number tokens s) ∨ ∃ problem, Flaw tokens problem := by
  match tokens with
  | [] => exact .inl ⟨_, .blank⟩
  | first :: arguments =>
    by_cases dotted : first.toList.head? = some '.'
    case neg => exact .inl ⟨_, .instruction arguments dotted⟩
    by_cases known : ∃ k : Kind, first = k.directive
    case neg => exact .inr ⟨_, .unknownDirective arguments dotted fun k hk => known ⟨k, hk⟩⟩
    obtain ⟨k, rfl⟩ := known
    match arguments with
    | [] => exact .inr ⟨_, .argumentCount k (by simp)⟩
    | [name] => exact .inl ⟨_, .declaration k name⟩
    | [name, token] =>
      cases literal : Literal.word? k token with
      | none => exact .inr ⟨_, .invalidLiteral k name literal⟩
      | some w => exact .inl ⟨_, .initialised k name literal⟩
    | _ :: _ :: _ :: _ => exact .inr ⟨_, .argumentCount k (by simp)⟩

theorem parse_eq_ok_iff {number : Nat} {line : List Char} {s : SourceLine} :
    parse number line = .ok s ↔ Form number (Text.tokens line) s := by
  refine ⟨fun h => ?_, parse_of_form⟩
  obtain ⟨s', hs⟩ | ⟨problem, hp⟩ := form_or_flaw number (Text.tokens line)
  · rw [parse_of_form hs] at h
    exact Except.ok.inj h ▸ hs
  · rw [parse_of_flaw hp] at h
    cases h

theorem parse_eq_error_iff {number : Nat} {line : List Char} {cause : Cause} :
    parse number line = .error cause ↔
      ∃ problem, cause = .badLine number problem ∧ Flaw (Text.tokens line) problem := by
  constructor
  · intro h
    obtain ⟨s, hs⟩ | ⟨problem, hp⟩ := form_or_flaw number (Text.tokens line)
    · rw [parse_of_form hs] at h
      cases h
    · rw [parse_of_flaw hp] at h
      exact ⟨problem, (Except.error.inj h).symm, hp⟩
  · rintro ⟨problem, rfl, hp⟩
    exact parse_of_flaw hp

theorem not_wellFormed_of_flaw {line : List Char} {problem : String}
    (h : Flaw (Text.tokens line) problem) : ¬WellFormed (Text.tokens line) := by
  rintro ⟨number, s, hs⟩
  have he := parse_of_form hs
  rw [parse_of_flaw h] at he
  cases he

theorem head?_append {s : String} {c : Char} (h : s.toList.head? = some c) (t : String) :
    (s ++ t).toList.head? = some c := by
  rw [String.toList_append, List.head?_append, h]
  rfl

theorem Flaw.ne_misplaced {tokens : List String} {problem : String} (h : Flaw tokens problem)
    (token : String) : problem ≠ s!"directive `{token}` where an instruction was expected" := by
  -- The first characters differ already.
  have hd : s!"directive `{token}` where an instruction was expected".toList.head? = some 'd' :=
    head?_append (head?_append rfl _) _
  obtain ⟨c, hc, hne⟩ : ∃ c, problem.toList.head? = some c ∧ c ≠ 'd' := by
    cases h with
    | unknownDirective => exact ⟨'u', head?_append (head?_append rfl _) _, by decide⟩
    | argumentCount k =>
      have hk : k.directive.toList.head? = some '.' := by
        cases k <;> rfl
      exact ⟨'.', head?_append (head?_append (head?_append hk _) _) _, by decide⟩
    | invalidLiteral =>
      exact ⟨_, head?_append (head?_append (head?_append (head?_append rfl _) _) _) _, by decide⟩
  rintro rfl
  exact hne (Option.some.inj (hc.symm.trans hd))

/-- A line that declares nothing is read in the same way where an instruction is expected. -/
theorem parseLine_of_form {number : Nat} {line : List Char} {s : SourceLine}
    (h : Form number (Text.tokens line) s) (hd : s.declaration? = none) :
    Instruction.parseLine number (String.ofList line) = .ok s.instruction? := by
  unfold Instruction.parseLine
  rw [String.toList_ofList]
  generalize Text.tokens line = tokens at h
  cases h with
  | blank => rfl
  | instruction operands plain => simp only [if_neg plain, instruction?]
  | declaration k name => cases hd
  | initialised k name literal => cases hd

/-! ## Texts -/

theorem parseAll_eq_bind (first : Nat) (line : List Char) (rest : List (List Char)) :
    parseAll first (line :: rest) =
      (parse first line).bind fun s => (parseAll (first + 1) rest).map (s :: ·) := by
  unfold parseAll
  rw [List.zipIdx_cons, List.mapM_cons]
  rfl

def Says (first : Nat) (lines : List (List Char)) (said : List SourceLine) : Prop :=
  List.Forall₂ (fun line s => Form line.2 (Text.tokens line.1) s) (lines.zipIdx first) said

theorem parseAll_eq_ok_iff {first : Nat} {lines : List (List Char)} {said : List SourceLine} :
    parseAll first lines = .ok said ↔ Says first lines said := by
  induction lines generalizing first said with
  | nil =>
    show Except.ok [] = Except.ok said ↔ List.Forall₂ _ [] said
    rw [List.forall₂_nil_left_iff]
    exact ⟨fun h => (Except.ok.inj h).symm, fun h => congrArg Except.ok h.symm⟩
  | cons line rest ih =>
    constructor
    · intro h
      obtain ⟨s, tail, hs, ht, rfl⟩ := parseAll_cons h
      exact .cons (parse_eq_ok_iff.mp hs) (ih.mp ht)
    · intro h
      rw [Says, List.zipIdx_cons, List.forall₂_cons_left_iff] at h
      obtain ⟨s, tail, hs, ht, rfl⟩ := h
      rw [parseAll_eq_bind, parse_of_form hs, ih.mpr ht]
      rfl

theorem parseAll_eq_error {first : Nat} {lines : List (List Char)} {cause : Cause}
    (h : parseAll first lines = .error cause) :
    ∃ before line after, lines = before ++ line :: after ∧
      (∀ earlier ∈ before, WellFormed (Text.tokens earlier)) ∧
      parse (first + before.length) line = .error cause := by
  induction lines generalizing first with
  | nil => cases h
  | cons line rest ih =>
    rw [parseAll_eq_bind] at h
    cases hs : parse first line with
    | error refusal =>
      rw [hs] at h
      cases h
      exact ⟨[], line, rest, rfl, by simp, hs⟩
    | ok s =>
      have hrest : parseAll (first + 1) rest = .error cause := by
        rw [hs] at h
        cases hp : parseAll (first + 1) rest with
        | ok tail => rw [hp] at h; cases h
        | error refusal => rw [hp] at h; cases h; rfl
      obtain ⟨before, bad, after, rfl, hb, he⟩ := ih hrest
      refine ⟨line :: before, bad, after, rfl, ?_, ?_⟩
      · -- A line that was read has a form.
        rintro earlier (_ | ⟨_, hmem⟩)
        · exact ⟨first, s, parse_eq_ok_iff.mp hs⟩
        · exact hb earlier hmem
      · rw [List.length_cons, Nat.add_comm before.length, ← Nat.add_assoc]
        exact he

theorem parseAll_of_error {first : Nat} {before : List (List Char)} {line : List Char}
    {cause : Cause} (hb : ∀ earlier ∈ before, WellFormed (Text.tokens earlier))
    (he : parse (first + before.length) line = .error cause) (after : List (List Char)) :
    parseAll first (before ++ line :: after) = .error cause := by
  induction before generalizing first with
  | nil =>
    have he : parse first line = .error cause := he
    rw [List.nil_append, parseAll_eq_bind, he]
    rfl
  | cons l before ih =>
    obtain ⟨s, hs⟩ := (wellFormed_iff first).mp (hb l List.mem_cons_self)
    rw [List.length_cons, Nat.add_comm before.length, ← Nat.add_assoc] at he
    rw [List.cons_append, parseAll_eq_bind, parse_of_form hs,
      ih (fun earlier hmem => hb earlier (List.mem_cons_of_mem l hmem)) he]
    rfl

theorem wellFormed_of_parseAll {first : Nat} {lines : List (List Char)} {said : List SourceLine}
    (h : parseAll first lines = .ok said) : ∀ line ∈ lines, WellFormed (Text.tokens line) := by
  induction lines generalizing first said with
  | nil => simp
  | cons line rest ih =>
    obtain ⟨s, tail, hs, ht, -⟩ := parseAll_cons h
    rintro l (_ | ⟨_, hl⟩)
    · exact ⟨first, s, parse_eq_ok_iff.mp hs⟩
    · exact ih ht l hl

end SourceLine

namespace Program

open SourceLine

theorem parse_eq_map (source : String) :
    parse source = (parseAll 1 (Text.lines source.toList)).map fun said =>
      ⟨said.filterMap declaration?, said.filterMap instruction?⟩ := by
  unfold parse parseAll
  rfl

theorem parse_eq_ok_iff {source : String} {program : Program} :
    parse source = .ok program ↔ ∃ said, Says 1 (Text.lines source.toList) said ∧
      program = ⟨said.filterMap declaration?, said.filterMap instruction?⟩ := by
  constructor
  · intro h
    obtain ⟨said, hs, rfl⟩ := parse_eq_ok h
    exact ⟨said, parseAll_eq_ok_iff.mp hs, rfl⟩
  · rintro ⟨said, hs, rfl⟩
    rw [parse_eq_map, parseAll_eq_ok_iff.mpr hs]
    rfl

theorem parse_eq_error_iff {source : String} {cause : Cause} :
    parse source = .error cause ↔
      parseAll 1 (Text.lines source.toList) = .error cause := by
  rw [parse_eq_map]
  cases parseAll 1 (Text.lines source.toList) with
  | ok said => simp [Except.map]
  | error refusal => simp [Except.map]

/-- A text is refused for the flaw of a line that no line without a form comes before. -/
theorem exists_flaw_of_error {source : String} {cause : Cause} (h : parse source = .error cause) :
    ∃ before line after problem,
      Text.lines source.toList = before ++ line :: after ∧
      (∀ earlier ∈ before, WellFormed (Text.tokens earlier)) ∧
      Flaw (Text.tokens line) problem ∧ cause = .badLine (before.length + 1) problem := by
  obtain ⟨before, line, after, hl, hb, he⟩ := parseAll_eq_error (parse_eq_error_iff.mp h)
  obtain ⟨problem, rfl, hf⟩ := SourceLine.parse_eq_error_iff.mp he
  rw [Nat.add_comm 1]
  exact ⟨before, line, after, problem, hl, hb, hf, rfl⟩

/-- A text is refused for a line with a flaw, whatever follows it, if each line before has a form. -/
theorem parse_of_flaw {source : String} {before after : List (List Char)} {line : List Char}
    {problem : String} (hl : Text.lines source.toList = before ++ line :: after)
    (hb : ∀ earlier ∈ before, WellFormed (Text.tokens earlier))
    (hf : Flaw (Text.tokens line) problem) :
    parse source = .error (.badLine (before.length + 1) problem) := by
  rw [parse_eq_error_iff, hl, Nat.add_comm]
  exact parseAll_of_error hb (SourceLine.parse_of_flaw hf) after

theorem parse_isOk_iff {source : String} :
    (∃ program, parse source = .ok program) ↔
      ∀ line ∈ Text.lines source.toList, WellFormed (Text.tokens line) := by
  constructor
  · rintro ⟨program, h⟩
    obtain ⟨said, hs, -⟩ := parse_eq_ok h
    exact wellFormed_of_parseAll hs
  · intro h
    cases hp : parse source with
    | ok program => exact ⟨program, rfl⟩
    | error cause =>
      obtain ⟨before, line, after, problem, hl, -, hf, -⟩ := exists_flaw_of_error hp
      exact absurd (h line (by simp [hl])) (not_wellFormed_of_flaw hf)

/-- A text is read exactly when it follows the grammar, as what its lines say.  Otherwise it is
refused for its first line without a form, with the flaw of that line. -/
theorem parse_grammar (source : String) :
    (∀ program, parse source = .ok program ↔
      ∃ said, Says 1 (Text.lines source.toList) said ∧
        program = ⟨said.filterMap declaration?, said.filterMap instruction?⟩) ∧
    ((∃ program, parse source = .ok program) ↔
      ∀ line ∈ Text.lines source.toList, WellFormed (Text.tokens line)) ∧
    (∀ cause, parse source = .error cause →
      ∃ before line after problem,
        Text.lines source.toList = before ++ line :: after ∧
        (∀ earlier ∈ before, WellFormed (Text.tokens earlier)) ∧
        ¬WellFormed (Text.tokens line) ∧ Flaw (Text.tokens line) problem ∧
        cause = .badLine (before.length + 1) problem ∧
        (∀ token : String, problem ≠ s!"directive `{token}` where an instruction was expected") ∧
        ∀ other rest, Text.lines other.toList = before ++ line :: rest →
          parse other = .error cause) ∧
    ∀ number line s, Form number (Text.tokens line) s → s.declaration? = none →
      Instruction.parseLine number (String.ofList line) = .ok s.instruction? := by
  refine ⟨fun program => parse_eq_ok_iff, parse_isOk_iff, ?_, ?_⟩
  · intro cause hp
    obtain ⟨before, line, after, problem, hl, hb, hf, rfl⟩ := exists_flaw_of_error hp
    refine ⟨before, line, after, problem, hl, hb, not_wellFormed_of_flaw hf, hf, rfl,
      hf.ne_misplaced, ?_⟩
    intro other rest ho
    exact parse_of_flaw ho hb hf
  · intro number line s hs hd
    exact parseLine_of_form hs hd

/-- The third line is refused, though the fourth has no form either. -/
theorem parse_grammar_two_flaws :
    let source := "# totals\nADD a, 1\n.double x 2\n.int\n"
    parse source = .error (.badLine 3 "unknown directive `.double`") ∧
      ∃ before line after, Text.lines source.toList = before ++ line :: after ∧
        before.length = 2 ∧ ¬WellFormed (Text.tokens line) ∧
        ∀ other rest, Text.lines other.toList = before ++ line :: rest →
          parse other = .error (.badLine 3 "unknown directive `.double`") := by
  intro source
  have hp : parse source = .error (.badLine 3 "unknown directive `.double`") := by
    have ho : (match parse source with | .ok _ => none | .error cause => some cause) =
        some (.badLine 3 "unknown directive `.double`") := by decide +kernel
    cases h : parse source with
    | ok program => rw [h] at ho; cases ho
    | error cause => rw [h] at ho; exact congrArg Except.error (Option.some.inj ho)
  obtain ⟨before, line, after, problem, hl, -, hw, -, hc, -, ho⟩ :=
    (parse_grammar source).2.2.1 _ hp
  refine ⟨hp, before, line, after, hl, ?_, hw, ho⟩
  have hn : 3 = before.length + 1 := (Cause.badLine.inj hc).1
  omega

end Program
end RegisterMachine
