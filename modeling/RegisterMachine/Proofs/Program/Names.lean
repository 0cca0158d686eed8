import RegisterMachine.Proofs.Bank.Provision
import RegisterMachine.Proofs.Program.WrittenForm
import RegisterMachine.Proofs.Text.Lines

/-!
# Register names in program texts

Whether a name is valid is said by its characters, and tokens are found by splitting a line.  The
two agree: a valid name is a token that is taken neither for a directive nor for quoted text.  So
every register of a bank can be an operand of a program, and of the names that a program declares
none is refused for a reason that has to do with splitting.
-/

namespace RegisterMachine

namespace Text

theorem isToken_iff_tokens {t : String} : IsToken t ↔ tokens t.toList = [t] := by
  refine ⟨IsToken.tokens_toList, fun h => ?_⟩
  exact (tokens_eq_iff_layout.mp h).isToken t List.mem_cons_self

theorem isRegisterName_iff {name : String} :
    isRegisterName name = true ↔
      IsToken name ∧ name.toList.head? ≠ some '.' ∧ '"' ∉ name.toList := by
  simp only [isRegisterName, Bool.and_eq_true, decide_eq_true_eq, List.all_eq_true,
    Bool.not_eq_true', Bool.or_eq_false_iff, beq_eq_false_iff_ne]
  constructor
  · rintro ⟨⟨hne, hdot⟩, hall⟩
    refine ⟨⟨hne, fun c hc => ?_⟩, hdot, fun hquote => (hall _ hquote).2 rfl⟩
    obtain ⟨⟨⟨hblank, hcomma⟩, hmark⟩, -⟩ := hall c hc
    exact ⟨Bool.or_eq_false_iff.mpr ⟨hblank, beq_eq_false_iff_ne.mpr hcomma⟩, hmark⟩
  · rintro ⟨htoken, hdot, hquote⟩
    refine ⟨⟨htoken.ne_nil, hdot⟩, fun c hc => ?_⟩
    obtain ⟨hseparator, hmark⟩ := htoken.plain c hc
    obtain ⟨hblank, hcomma⟩ := Bool.or_eq_false_iff.mp hseparator
    refine ⟨⟨⟨hblank, beq_eq_false_iff_ne.mp hcomma⟩, hmark⟩, ?_⟩
    rintro rfl
    exact hquote hc

theorem isToken_of_isRegisterName {name : String} (h : isRegisterName name = true) :
    IsToken name :=
  (isRegisterName_iff.mp h).1

/-! ## Tokens with gaps between them -/

/-- A line with each of the texts behind a gap, but for the first one. -/
def spaced (first : String) : List (List Char × String) → List Char
  | [] => first.toList
  | (gap, next) :: rest => first.toList ++ (gap ++ spaced next rest)

theorem layout_spaced {first : String} {rest : List (List Char × String)} (hf : IsToken first)
    (h : ∀ p ∈ rest, IsGap p.1 ∧ IsToken p.2) :
    Layout (first :: rest.map Prod.snd) (spaced first rest) := by
  induction rest generalizing first with
  | nil => exact .single hf
  | cons p rest ih =>
    obtain ⟨⟨hgap, hnext⟩, hrest⟩ := List.forall_mem_cons.mp h
    exact .token hf (hgap.endsToken _) ((ih hnext hrest).append_gap hgap.separators)

end Text

theorem Bank.isRegisterName_of_kindOf? {b : Bank} {name : String}
    (h : (b.kindOf? name).isSome = true) : isRegisterName name = true := by
  obtain ⟨k, hk⟩ := Option.isSome_iff_exists.mp h
  exact isRegisterName_of_contains (kindOf?_eq_some_iff.mp hk)

namespace Program

open SourceLine

/-- A text of one line is read as what the line says. -/
theorem parse_single_line {line : List Char} {s : SourceLine} (hn : '\n' ∉ line)
    (hne : Text.tokens line ≠ []) (h : Form 1 (Text.tokens line) s) :
    parse (String.ofList line) =
      .ok ⟨[s].filterMap declaration?, [s].filterMap instruction?⟩ := by
  have hline : line ≠ [] := by
    rintro rfl
    exact hne rfl
  refine parse_eq_ok_iff.mpr ⟨[s], ?_, rfl⟩
  rw [String.toList_ofList, Text.lines_eq_singleton hn hline]
  exact .cons h .nil

/-- The names that a program declares are tokens. -/
theorem isToken_of_declaration {source : String} {program : Program}
    (h : parse source = .ok program) : ∀ d ∈ program.declarations, Text.IsToken d.name := by
  obtain ⟨said, hsaid, rfl⟩ := parse_eq_ok h
  intro d hd
  obtain ⟨s, hs, hsome⟩ := List.mem_filterMap.mp hd
  obtain ⟨number, line, hform⟩ := exists_form_of_parseAll hsaid s hs
  have htoken := (Text.layout_tokens line).isToken
  generalize Text.tokens line = tokens at hform htoken
  cases hform with
  | blank => cases hsome
  | instruction operands plain => cases hsome
  | declaration k name =>
    cases hsome
    exact htoken name (by simp)
  | initialised k name literal =>
    cases hsome
    exact htoken name (by simp)

/-- Why a register that a program declares is refused behind others. -/
theorem refused_declaration {source : String} {program : Program}
    {given : List (String × Value)} {b : Bank} {cause : Cause} (h : parse source = .ok program)
    (hg : Bank.provision given = .ok b)
    (he : Bank.provision (given ++ program.registers) = .error cause) :
    ∃ before d after, program.declarations = before ++ d :: after ∧
      (cause = .duplicateRegister d.name ∧
          d.name ∈ given.map Prod.fst ++ before.map Declaration.name ∨
        cause = .invalidRegisterName d.name ∧
          (d.name.toList.head? = some '.' ∨ '"' ∈ d.name.toList)) := by
  obtain ⟨_, r, _, hys, hr⟩ := Intake.exists_refuses_of_append (I := Bank.intake) hg he
  obtain ⟨before, rest, hdecl, rfl, hrest⟩ := List.map_eq_append_iff.mp hys
  obtain ⟨d, after, rfl, rfl, -⟩ := List.map_eq_cons_iff.mp hrest
  refine ⟨before, d, after, hdecl, ?_⟩
  rcases Bank.intake_refuses_iff.mp hr with ⟨hn, hc⟩ | ⟨-, hk, hc⟩
  · have htoken : Text.IsToken d.name := isToken_of_declaration h d (by simp [hdecl])
    refine .inr ⟨hc, ?_⟩
    by_contra hno
    rw [not_or] at hno
    rw [Text.isRegisterName_iff.mpr ⟨htoken, hno⟩] at hn
    cases hn
  · rw [List.map_append, List.map_map] at hk
    exact .inl ⟨hc, hk⟩

/-- A name is valid exactly if it is the only token of itself, does not start with a dot and has no
quotation mark.  So the names of a bank can be written as operands behind any opcode, with any gaps
between them, and are read back; and a name that a program declares is refused only if it is there
already, starts with a dot or has a quotation mark. -/
theorem register_names_writable :
    (∀ name : String, isRegisterName name = true ↔
      Text.tokens name.toList = [name] ∧ name.toList.head? ≠ some '.' ∧ '"' ∉ name.toList) ∧
    (∀ (es : List Edit) (opcode : String) (operands : List (List Char × String)),
      Text.tokens opcode.toList = [opcode] → opcode.toList.head? ≠ some '.' →
      (∀ p ∈ operands, Text.IsGap p.1 ∧ ((Bank.empty.edits es).kindOf? p.2).isSome = true) →
      let line := Text.spaced opcode operands
      let i : Instruction := ⟨opcode, operands.map Prod.snd, none⟩
      (∀ number, Instruction.parseLine number (String.ofList line) =
        .ok (some { i with line := some number })) ∧
      ('\n' ∉ line → parse (String.ofList line) = .ok ⟨[], [{ i with line := some 1 }]⟩)) ∧
    ∀ (source : String) (program : Program) (given : List (String × Value)) (b : Bank)
      (cause : Cause), parse source = .ok program → Bank.provision given = .ok b →
      Bank.provision (given ++ program.registers) = .error cause →
      ∃ before d after, program.declarations = before ++ d :: after ∧
        (cause = .duplicateRegister d.name ∧
            d.name ∈ given.map Prod.fst ++ before.map Declaration.name ∨
          cause = .invalidRegisterName d.name ∧
            (d.name.toList.head? = some '.' ∨ '"' ∈ d.name.toList)) := by
  refine ⟨fun name => ?_, ?_, ?_⟩
  · rw [Text.isRegisterName_iff, Text.isToken_iff_tokens]
  · intro es opcode operands ht hp hoperands line i
    have htokens : Text.tokens line = opcode :: operands.map Prod.snd := by
      refine (Text.layout_spaced (Text.isToken_iff_tokens.mpr ht) fun p hmem => ?_).tokens_eq
      obtain ⟨hgap, hname⟩ := hoperands p hmem
      exact ⟨hgap, Text.isToken_of_isRegisterName (Bank.isRegisterName_of_kindOf? hname)⟩
    refine ⟨fun number => ?_, fun hn => ?_⟩
    · rw [Instruction.parseLine_eq_some_iff, String.toList_ofList]
      exact ⟨htokens, hp, rfl⟩
    · have hform : Form 1 (Text.tokens line) (.instruction { i with line := some 1 }) := by
        rw [htokens]
        exact .instruction _ hp
      exact parse_single_line hn (by rw [htokens]; exact List.cons_ne_nil _ _) hform
  · intro source program given b cause h hg he
    exact refused_declaration h hg he

/-- A name that could be a number and one outside of ASCII, with a comma and tabs between them.  The
name of the second declaration is a token, but it starts with a dot. -/
theorem register_names_writable_dotted :
    let es : List Edit := [.declare "7" (.int 1), .declare "π" (.float 2)]
    let operands : List (List Char × String) := [(['\t', ','], "π"), ([' '], "7")]
    let source := ".int a 1\n.float .b\n"
    let program : Program := ⟨[⟨"a", .int 1, 1⟩, ⟨".b", .float 0, 2⟩], []⟩
    (∀ p ∈ operands, Text.IsGap p.1 ∧ ((Bank.empty.edits es).kindOf? p.2).isSome = true) ∧
      String.ofList (Text.spaced "FADD" operands) = "FADD\t,π 7" ∧
      parse "FADD\t,π 7" = .ok ⟨[], [⟨"FADD", ["π", "7"], some 1⟩]⟩ ∧
      parse source = .ok program ∧
      Bank.provision program.registers = .error (.invalidRegisterName ".b") ∧
      ∃ d ∈ program.declarations, d.name = ".b" ∧
        (d.name.toList.head? = some '.' ∨ '"' ∈ d.name.toList) := by
  intro es operands source program
  have hline : String.ofList (Text.spaced "FADD" operands) = "FADD\t,π 7" := by decide +kernel
  have hoperands : ∀ p ∈ operands,
      Text.IsGap p.1 ∧ ((Bank.empty.edits es).kindOf? p.2).isSome = true := by
    refine List.forall_mem_cons.mpr ⟨⟨⟨by decide, List.all_eq_true.1 rfl⟩, by decide +kernel⟩, ?_⟩
    refine List.forall_mem_cons.mpr ⟨⟨⟨by decide, List.all_eq_true.1 rfl⟩, by decide +kernel⟩, ?_⟩
    simp
  obtain ⟨-, hwritten, hrefused⟩ := register_names_writable
  have hread := (hwritten es "FADD" operands (by decide +kernel) (by decide) hoperands).2
    (by decide +kernel)
  have hsource : parse source = .ok program := by decide +kernel
  have herror : Bank.provision program.registers = .error (.invalidRegisterName ".b") := rfl
  refine ⟨hoperands, hline, by rw [← hline]; exact hread, hsource, herror, ?_⟩
  obtain ⟨before, d, after, hd, ⟨hc, -⟩ | ⟨hc, hdot⟩⟩ :=
    hrefused source program [] Bank.empty _ hsource rfl herror
  · cases hc
  · have hname : ".b" = d.name := Cause.invalidRegisterName.inj hc
    exact ⟨d, by rw [hd]; exact List.mem_append_right _ List.mem_cons_self, hname.symm, hdot⟩

end Program
end RegisterMachine
