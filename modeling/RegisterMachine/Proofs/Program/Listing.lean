import RegisterMachine.Proofs.Decimal.Format
import RegisterMachine.Proofs.Program.Directive

/-!
# Writing a bank as a program

A bank is written as one declaration for each of its points.  Each value is read back from its text,
and neither a name nor a value has a character that would end its token, so the lines are read as
they were written and declare the same bank.
-/

namespace RegisterMachine

namespace Text

theorem toNat_of_isLetter {c : Char} (h : Literal.isLetter c) :
    43 ≤ c.toNat ∧ c.toNat ≠ 44 ∧ c.toNat ≤ 122 := by
  simp only [Literal.isLetter, Char.isAlphanum, Char.isAlpha, Char.isUpper, Char.isLower,
    Char.isDigit, Bool.or_eq_true, Bool.and_eq_true, decide_eq_true_eq, beq_iff_eq] at h
  obtain ((((⟨hl, hr⟩ | ⟨hl, hr⟩) | ⟨hl, hr⟩) | rfl) | rfl) | rfl := h
  · have hl : 65 ≤ c.toNat := hl
    have hr : c.toNat ≤ 90 := hr
    omega
  · have hl : 97 ≤ c.toNat := hl
    have hr : c.toNat ≤ 122 := hr
    omega
  · have hl : 48 ≤ c.toNat := hl
    have hr : c.toNat ≤ 57 := hr
    omega
  · decide
  · decide
  · decide

theorem isToken_of_spelled {t : String} (h : Literal.Spelled t.toList) : IsToken t := by
  refine ⟨h.1, fun c hc => ?_⟩
  obtain ⟨hlow, hcomma, hhigh⟩ := toNat_of_isLetter (h.2 c hc)
  refine ⟨?_, ?_⟩
  · rw [isSeparator, Bool.or_eq_false_iff]
    refine ⟨?_, ?_⟩
    · rw [isBlank, decide_eq_false_iff_not]
      omega
    · rw [beq_eq_false_iff_ne]
      rintro rfl
      exact hcomma rfl
  · rintro rfl
    exact absurd hlow (by decide)

end Text

namespace Value

@[simp] theorem word?_text (k : Kind) (w : k.Word) :
    Literal.word? k (ofWord k w).text = some w := by
  cases k with
  | int => exact Literal.int?_toString w
  | float => exact Decimal.float?_text w

theorem exists_word?_text (v : Value) :
    ∃ w, ofWord v.kind w = v ∧ Literal.word? v.kind v.text = some w := by
  cases v with
  | int w => exact ⟨w, rfl, word?_text .int w⟩
  | float w => exact ⟨w, rfl, word?_text .float w⟩

/-- Every value is read from its own text. -/
@[simp] theorem parse_text (v : Value) : parse v.kind v.text = .ok v := by
  obtain ⟨w, hw, h⟩ := v.exists_word?_text
  rw [parse, Literal.word, h]
  exact congrArg Except.ok hw

theorem isToken_text (v : Value) : Text.IsToken v.text := by
  obtain ⟨w, -, h⟩ := v.exists_word?_text
  exact Text.isToken_of_spelled (Literal.spelled_of_word? h)

end Value

namespace Program

def declarationLine (r : String × Value) : String :=
  r.2.kind.directive ++ " " ++ r.1 ++ " " ++ r.2.text

def listing : List (String × Value) → String
  | [] => ""
  | r :: rs => declarationLine r ++ "\n" ++ listing rs

def pointText (r : String × Value) : RegisterText :=
  ⟨r.2.kind, r.1, some r.2.text⟩

theorem listing_eq_directives (rs : List (String × Value)) :
    listing rs = directives (rs.map pointText) := by
  induction rs with
  | nil => rfl
  | cons r rs ih =>
    rw [listing, ih]
    rfl

theorem wellFormed_pointText {r : String × Value} (h : Text.IsToken r.1) :
    (pointText r).WellFormed := by
  refine ⟨h, fun token ht => ?_⟩
  rw [← Option.some.inj ht]
  exact r.2.isToken_text

theorem means_pointText (r : String × Value) : (pointText r).Means r :=
  ⟨rfl, r.2.parse_text⟩

/-- A listing is read as one declaration for each register, on the line where it stands. -/
theorem parse_listing {rs : List (String × Value)} (h : ∀ r ∈ rs, Text.IsToken r.1) :
    parse (listing rs) = .ok ⟨(rs.zipIdx 1).map fun (r, n) => ⟨r.1, r.2, n⟩, []⟩ := by
  have hwell : ∀ r ∈ rs.map pointText, r.WellFormed :=
    List.forall_mem_map.mpr fun r hr => wellFormed_pointText (h r hr)
  have hmeans : List.Forall₂ RegisterText.Means (rs.map pointText) rs :=
    List.forall₂_map_left_iff.mpr (List.forall₂_same.mpr fun r _ => means_pointText r)
  have hempty : parse "" = .ok {} := rfl
  have hparse := parse_directives_append hwell hmeans hempty
  rw [String.append_empty, ← listing_eq_directives] at hparse
  rw [hparse, declaring, List.map_nil, List.append_nil, List.map_nil]

@[simp] theorem registers_listing (rs : List (String × Value)) :
    registers ⟨(rs.zipIdx 1).map fun (r, n) => ⟨r.1, r.2, n⟩, []⟩ = rs := by
  rw [registers, List.map_map]
  exact List.zipIdx_map_fst 1 rs

end Program

/-- Every value is read from its own text.  The points of a bank that was made by declarations and
assignments, written one to a line, are read as the same declarations in the same order and nothing
else, and a machine that is provisioned with them has the same bank. -/
theorem Bank.listing_round_trip :
    (∀ v : Value, Value.parse v.kind v.text = .ok v) ∧
    ∀ es : List Edit, let b := Bank.empty.edits es
      ∃ program, Program.parse (Program.listing b.points) = .ok program ∧
        program.instructions = [] ∧
        program.declarations = (b.points.zipIdx 1).map (fun (p, n) => ⟨p.1, p.2, n⟩) ∧
        ∀ operators limits, ∃ m,
          Machine.provision program.registers operators limits = .ok m ∧ m.registers = b := by
  refine ⟨Value.parse_text, ?_⟩
  intro es b
  have hb : b.Represents (Entries.edits ∅ es) := represents_empty.edits es
  have htoken : ∀ p ∈ b.points, Text.IsToken p.1 := fun p hp =>
    Text.isToken_of_isRegisterName (hb.valid_of_mem_points hp)
  refine ⟨_, Program.parse_listing htoken, rfl, rfl, fun operators limits => ?_⟩
  rw [Program.registers_listing, Machine.provision, provision_points hb]
  exact ⟨_, rfl, rfl⟩

end RegisterMachine
