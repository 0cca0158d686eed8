import RegisterMachine.Proofs.Program.Append
import RegisterMachine.Proofs.Program.Names

/-!
# Registers that a program asks for

A register is asked for in writing by its kind, its name and perhaps the text of a value.  Its line
in a program is the directive of the kind with the name and the text behind it.  The line is read as
the declaration of the register with its value, or it is refused with the message that the text of
the value is refused with.  A program is read in this way line by line, and what stands behind the
lines is read as if it stood alone.
-/

namespace RegisterMachine

theorem Text.isToken_directive (k : Kind) : IsToken k.directive := by
  cases k <;> exact isToken_iff_tokens.mpr (by decide +kernel)

/-- A register as it is asked for in writing. -/
structure RegisterText where
  kind : Kind
  name : String
  /-- The text of the initial value, if there is one. -/
  value? : Option String := none

namespace RegisterText

/-- The name and the text of the value can stand on a line as they are. -/
structure WellFormed (r : RegisterText) : Prop where
  name : Text.IsToken r.name
  value : ∀ token, r.value? = some token → Text.IsToken token

/-- The initial value.  A register without one starts with zero. -/
def value (r : RegisterText) : Except Cause Value :=
  match r.value? with
  | none => .ok (.zero r.kind)
  | some token => Value.parse r.kind token

def Means (r : RegisterText) (d : String × Value) : Prop :=
  d.1 = r.name ∧ r.value = .ok d.2

def words (r : RegisterText) : List String :=
  r.kind.directive :: r.name :: r.value?.toList

def line (r : RegisterText) : String :=
  String.intercalate " " r.words

theorem value_of_none {r : RegisterText} (h : r.value? = none) : r.value = .ok (.zero r.kind) := by
  rw [value, h]

theorem value_of_some {r : RegisterText} {token : String} (h : r.value? = some token) :
    r.value = Value.parse r.kind token := by
  rw [value, h]

theorem value_eq_error {r : RegisterText} {cause : Cause} (h : r.value = .error cause) :
    ∃ token, r.value? = some token ∧ cause = .invalidLiteral r.kind token := by
  cases hv : r.value? with
  | none =>
    rw [value_of_none hv] at h
    cases h
  | some token =>
    rw [value_of_some hv, Value.parse, Literal.word] at h
    cases hw : Literal.word? r.kind token with
    | some w =>
      rw [hw] at h
      cases h
    | none =>
      rw [hw] at h
      cases h
      exact ⟨token, rfl, rfl⟩

/-- All registers have values, or there is a first one whose text denotes none. -/
theorem means_or_refused (rs : List RegisterText) :
    (∃ given, List.Forall₂ Means rs given) ∨
      ∃ before r after given cause, rs = before ++ r :: after ∧
        List.Forall₂ Means before given ∧ r.value = .error cause := by
  induction rs with
  | nil => exact .inl ⟨[], .nil⟩
  | cons r rs ih =>
    cases hv : r.value with
    | error cause => exact .inr ⟨[], r, rs, [], cause, rfl, .nil, hv⟩
    | ok v =>
      have hr : r.Means (r.name, v) := ⟨rfl, hv⟩
      obtain ⟨given, hgiven⟩ | ⟨before, bad, after, given, cause, rfl, hgiven, hbad⟩ := ih
      · exact .inl ⟨_ :: given, .cons hr hgiven⟩
      · exact .inr ⟨r :: before, bad, after, _ :: given, cause, rfl, .cons hr hgiven, hbad⟩

section WellFormed

variable {r : RegisterText}

theorem WellFormed.isToken_words (h : r.WellFormed) : ∀ t ∈ r.words, Text.IsToken t := by
  have hvalue : ∀ t ∈ r.value?.toList, Text.IsToken t := by
    intro t ht
    exact h.value t (Option.mem_toList.mp ht)
  exact List.forall_mem_cons.mpr ⟨Text.isToken_directive r.kind,
    List.forall_mem_cons.mpr ⟨h.name, hvalue⟩⟩

theorem WellFormed.tokens_line (h : r.WellFormed) : Text.tokens r.line.toList = r.words := by
  have hgap : Text.IsGap " ".toList := ⟨by decide, List.all_eq_true.1 rfl⟩
  exact (Text.layout_intercalate hgap h.isToken_words).tokens_eq

/-- The line breaks no line. -/
theorem WellFormed.ne_newline_line (h : r.WellFormed) :
    ∀ c ∈ r.line.toList, c ≠ '\n' ∧ c ≠ '\r' := by
  have hgap : ∀ c ∈ " ".toList, c ≠ '\n' ∧ c ≠ '\r' := by
    intro c hc
    rw [List.mem_singleton.mp (show c ∈ [' '] from hc)]
    decide
  exact Text.forall_mem_intercalate hgap fun t ht => (h.isToken_words t ht).ne_newline

theorem WellFormed.parse_line (h : r.WellFormed) (number : Nat) :
    SourceLine.parse number r.line.toList =
      match r.value with
      | .ok v => .ok (.declaration ⟨r.name, v, number⟩)
      | .error cause => .error (.badLine number cause.message) := by
  rw [SourceLine.parse_of_dotted h.tokens_line r.kind.dot_name]
  cases hv : r.value? with
  | none =>
    rw [value_of_none hv, Option.toList_none, Declaration.parse_one]
    rfl
  | some token =>
    rw [value_of_some hv, Option.toList_some, Declaration.parse_two]
    cases Value.parse r.kind token with
    | ok v => rfl
    | error cause => rfl

theorem WellFormed.parse_of_means (h : r.WellFormed) {d : String × Value} (hd : r.Means d)
    (number : Nat) :
    SourceLine.parse number r.line.toList = .ok (.declaration ⟨d.1, d.2, number⟩) := by
  rw [h.parse_line, hd.2, hd.1]

end WellFormed
end RegisterText

namespace SourceLine

/-- The declarations of registers that stand one to a line from `first` on. -/
def declared (first : Nat) (given : List (String × Value)) : List SourceLine :=
  (given.zipIdx first).map fun (d, number) => .declaration ⟨d.1, d.2, number⟩

theorem parseAll_lines {rs : List RegisterText} {given : List (String × Value)}
    (h : ∀ r ∈ rs, r.WellFormed) (hd : List.Forall₂ RegisterText.Means rs given) (first : Nat) :
    parseAll first (rs.map fun r => r.line.toList) = .ok (declared first given) := by
  induction hd generalizing first with
  | nil => rfl
  | cons hr hrs ih =>
    obtain ⟨hw, hws⟩ := List.forall_mem_cons.mp h
    rw [List.map_cons, parseAll_eq_bind, hw.parse_of_means hr, ih hws]
    rfl

end SourceLine

namespace Program

open SourceLine

def directives (rs : List RegisterText) : String :=
  Text.unlines (rs.map RegisterText.line)

theorem lines_directives_append {rs : List RegisterText} (h : ∀ r ∈ rs, r.WellFormed)
    (source : String) :
    Text.lines (directives rs ++ source).toList =
      rs.map (fun r => r.line.toList) ++ Text.lines source.toList := by
  have hlines : ∀ l ∈ rs.map RegisterText.line, ∀ c ∈ l.toList, c ≠ '\n' ∧ c ≠ '\r' := by
    intro l hl
    obtain ⟨r, hr, rfl⟩ := List.mem_map.mp hl
    exact (h r hr).ne_newline_line
  rw [directives, Text.lines_unlines_append hlines, List.map_map]
  rfl

/-- The program with registers declared one to a line in front of it. -/
def declaring (p : Program) (given : List (String × Value)) : Program :=
  ⟨(given.zipIdx 1).map (fun (d, number) => ⟨d.1, d.2, number⟩) ++
      p.declarations.map (Declaration.shift given.length),
    p.instructions.map (Instruction.shift given.length)⟩

@[simp] theorem registers_declaring (p : Program) (given : List (String × Value)) :
    (p.declaring given).registers = given ++ p.registers := by
  have hgiven : ((given.zipIdx 1).map fun (d, number) => Declaration.mk d.1 d.2 number).map
      (fun d => (d.name, d.initial)) = given := by
    rw [List.map_map]
    exact List.zipIdx_map_fst 1 given
  have hshift (k : Nat) : (p.declarations.map (Declaration.shift k)).map
      (fun d => (d.name, d.initial)) = p.registers := by
    rw [List.map_map]
    rfl
  rw [registers, declaring, List.map_append, hgiven, hshift]

theorem filterMap_declared (first : Nat) (given : List (String × Value)) :
    (declared first given).filterMap declaration? =
        (given.zipIdx first).map (fun (d, number) => ⟨d.1, d.2, number⟩) ∧
      (declared first given).filterMap instruction? = [] := by
  rw [declared, List.filterMap_map, List.filterMap_map, List.filterMap_eq_nil_iff]
  exact ⟨congrFun List.filterMap_eq_map _, fun _ _ => rfl⟩

/-- The registers are declared in front of what the rest of the text declares. -/
theorem parse_directives_append {rs : List RegisterText} {given : List (String × Value)}
    (h : ∀ r ∈ rs, r.WellFormed) (hd : List.Forall₂ RegisterText.Means rs given)
    {source : String} {p : Program} (hp : parse source = .ok p) :
    parse (directives rs ++ source) = .ok (p.declaring given) := by
  obtain ⟨said, hsaid, rfl⟩ := parse_eq_ok hp
  have hall : parseAll 1 (Text.lines (directives rs ++ source).toList) =
      .ok (declared 1 given ++ said.map (shift given.length)) := by
    rw [lines_directives_append h, parseAll_append, parseAll_lines h hd, List.length_map,
      hd.length_eq]
    show (parseAll (1 + given.length) (Text.lines source.toList)).map _ = _
    rw [parseAll_shift hsaid]
    rfl
  obtain ⟨hdeclarations, hinstructions⟩ := filterMap_declared 1 given
  rw [parse_eq_map, hall]
  show Except.ok (Program.mk _ _) = _
  rw [List.filterMap_append, List.filterMap_append, filterMap_declaration?_shift,
    filterMap_instruction?_shift, hdeclarations, hinstructions, List.nil_append, declaring]

/-- The text is refused at the line of the first register whose value is refused. -/
theorem parse_directives_refused {before after : List RegisterText} {r : RegisterText}
    {given : List (String × Value)} {cause : Cause} (h : ∀ q ∈ before ++ r :: after, q.WellFormed)
    (hd : List.Forall₂ RegisterText.Means before given) (hv : r.value = .error cause)
    (source : String) :
    parse (directives (before ++ r :: after) ++ source) =
      .error (.badLine (before.length + 1) cause.message) := by
  have hbefore : ∀ q ∈ before, q.WellFormed := fun q hq => h q (List.mem_append_left _ hq)
  have hr : r.WellFormed := h r (List.mem_append_right _ List.mem_cons_self)
  have hforms := wellFormed_of_parseAll (parseAll_lines hbefore hd 1)
  rw [parse_eq_error_iff, lines_directives_append h, List.map_append, List.map_cons,
    List.append_assoc, List.cons_append]
  refine parseAll_of_error hforms ?_ _
  rw [hr.parse_line, hv, List.length_map, Nat.add_comm]

/-- A text of one line that asks for a register. -/
theorem parse_line {r : RegisterText} (h : r.WellFormed) :
    parse r.line =
      match r.value with
      | .ok v => .ok ⟨[⟨r.name, v, 1⟩], []⟩
      | .error cause => .error (.badLine 1 cause.message) := by
  have hne : r.line.toList ≠ [] := by
    intro hnil
    have htokens := h.tokens_line
    rw [hnil] at htokens
    cases htokens
  have hlines : Text.lines r.line.toList = [r.line.toList] :=
    Text.lines_eq_singleton (fun hn => (h.ne_newline_line _ hn).1 rfl) hne
  rw [parse_eq_map, hlines, parseAll_eq_bind, h.parse_line]
  cases r.value with
  | ok v => rfl
  | error cause => rfl

end Program
end RegisterMachine
