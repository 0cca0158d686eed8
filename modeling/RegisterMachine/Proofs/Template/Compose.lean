import Mathlib.Data.List.Induction
import RegisterMachine.Proofs.Template.Cut

/-!
# Renaming a template twice

Every text has a cut, also one whose braces do not match.  If a renaming gives only texts that can be
names, the text that it writes is cut at the same places, so what comes second sees the names that came
first.  Hence renamings compose, and the names of a renamed template are the renamed names.
-/

namespace RegisterMachine
namespace Template

/-- A text that can stand as the name of a hole, wherever the hole is. -/
structure IsName (name : String) : Prop where
  ne_empty : name ≠ ""
  plain : ∀ c ∈ name.toList, c ≠ '{' ∧ c ≠ '}' ∧ c ≠ ':'

/-- The answers of both, the second asked about what the first has left. -/
def andThen (first second : String → Option String) (name : String) : Option String :=
  match first name with
  | some new => some (renamed second new)
  | none => second name

theorem renamed_andThen (first second : String → Option String) (name : String) :
    renamed (andThen first second) name = renamed second (renamed first name) := by
  unfold renamed andThen
  cases first name with
  | none => rfl
  | some new => rfl

/-! ## Cuts that are written again -/

theorem Cut.head?_rename {ps : List Piece} {cs : List Char} (h : Cut ps cs)
    (new : String → Option String) :
    ((ps.map (Piece.rename new)).flatMap Piece.chars).head? = cs.head? := by
  cases h with
  | nil => rfl
  | char hc rest => rfl
  | braces rest => rfl
  | @hole _ name _ hname hfirst hend rest =>
    cases name with
    | nil => rfl
    | cons c name => rfl

def GivesNames (new : String → Option String) : Prop :=
  ∀ name answer, new name = some answer → IsName answer

namespace GivesNames

variable {first : String → Option String} (h : GivesNames first)
include h

theorem renamed_eq_or_isName (name : String) :
    renamed first name = name ∨ IsName (renamed first name) := by
  unfold renamed
  cases hn : first name with
  | none => exact .inl rfl
  | some answer => exact .inr (h name answer hn)

theorem renamed_ne_empty {name : String} (hn : name ≠ "") : renamed first name ≠ "" := by
  obtain he | hi := h.renamed_eq_or_isName name
  · rw [he]
    exact hn
  · exact hi.ne_empty

theorem rename_rename (second : String → Option String) (p : Piece) :
    (p.rename first).rename second = p.rename (andThen first second) := by
  cases p with
  | text cs => rfl
  | hole name =>
    cases name with
    | nil => rfl
    | cons c cs =>
      have hne : String.ofList (c :: cs) ≠ "" := by simp
      rw [Piece.rename, Piece.rename_hole (h.renamed_ne_empty hne), Piece.rename, renamed_andThen]

@[simp] theorem name?_rename (p : Piece) :
    (p.rename first).name? = p.name?.map (renamed first) := by
  cases p with
  | text cs => rfl
  | hole name =>
    cases name with
    | nil => rfl
    | cons c cs =>
      have hne : String.ofList (c :: cs) ≠ "" := by simp
      rw [Piece.rename, Piece.name?_hole (h.renamed_ne_empty hne)]
      rfl

/-- The text that a renaming writes is cut at the same places. -/
theorem cut {ps : List Piece} {cs : List Char} (hc : Cut ps cs) :
    Cut (ps.map (Piece.rename first)) ((ps.map (Piece.rename first)).flatMap Piece.chars) := by
  induction hc with
  | nil => exact .nil
  | char hc rest ih => exact .char hc ih
  | braces rest ih => exact .braces ih
  | @hole ps name cs hname hfirst hend rest ih =>
    have hend' : EndsName ((ps.map (Piece.rename first)).flatMap Piece.chars) := by
      intro c hc
      rw [rest.head?_rename] at hc
      exact hend c hc
    cases name with
    | nil => exact .hole (fun c hc => nomatch hc) (fun hc => nomatch hc) hend' ih
    | cons c name =>
      rw [List.map_cons, Piece.rename]
      obtain he | hi := h.renamed_eq_or_isName (String.ofList (c :: name))
      · rw [he, String.toList_ofList]
        exact .hole hname hfirst hend' ih
      · refine .hole (fun d hd => isNameChar_iff.mpr (hi.plain d hd).2) (fun hd => ?_) hend' ih
        exact (hi.plain '{' (List.mem_of_head? hd)).1 rfl

@[simp] theorem cuts_rename (template : String) :
    cuts (rename first template).toList = (cuts template.toList).map (Piece.rename first) := by
  rw [rename_eq_cuts, String.toList_ofList]
  exact (h.cut (cut_cuts template.toList)).cuts_eq

end GivesNames

/-! ## First occurrences -/

theorem eraseDups_concat (names : List String) (name : String) :
    (names ++ [name]).eraseDups =
      if name ∈ names then names.eraseDups else names.eraseDups ++ [name] := by
  rw [List.eraseDups_append]
  by_cases h : name ∈ names
  · rw [if_pos h]
    simp [List.removeAll, h]
  · rw [if_neg h]
    simp [List.removeAll, h, List.eraseDups_cons]

theorem eraseDups_map_eraseDups (g : String → String) (names : List String) :
    (names.eraseDups.map g).eraseDups = (names.map g).eraseDups := by
  induction names using List.reverseRecOn with
  | nil => rfl
  | append_singleton names name ih =>
    rw [List.map_append, List.map_singleton, eraseDups_concat, eraseDups_concat]
    by_cases h : name ∈ names
    · rw [if_pos h, if_pos (List.mem_map_of_mem h), ih]
    · have hmem : g name ∈ names.eraseDups.map g ↔ g name ∈ names.map g := by
        simp only [List.mem_map, List.mem_eraseDups]
      rw [if_neg h, List.map_append, List.map_singleton, eraseDups_concat, ih]
      simp only [hmem]

theorem length_pieces_le (cs : List Char) : (pieces cs).length ≤ cs.length := by
  fun_induction pieces cs with
  | case1 => exact Nat.le_refl 0
  | case2 cs ih => exact Nat.succ_le_succ (Nat.le_succ_of_le ih)
  | case3 cs ih => exact Nat.succ_le_succ (Nat.le_succ_of_le ih)
  | case4 cs hne ih =>
    have hdrop := (List.dropWhile_sublist isNameChar (l := cs)).length_le
    exact Nat.succ_le_succ (Nat.le_trans ih hdrop)
  | case5 c cs _ _ hne ih => exact Nat.succ_le_succ ih

@[simp] theorem flatMap_chars_cuts (cs : List Char) : (cuts cs).flatMap Piece.chars = cs := by
  have hp (p : Piece) : p.singles.flatMap Piece.chars = p.chars := by
    cases p with
    | text cs =>
      rw [Piece.singles, List.flatMap_map]
      exact List.flatMap_singleton' cs
    | hole name => rw [Piece.singles, List.flatMap_singleton]
  simp [cuts, List.flatMap_assoc, hp]

@[simp] theorem rename_none (template : String) : rename (fun _ => none) template = template := by
  have hp (p : Piece) : p.rename (fun _ => none) = p := by
    cases p with
    | text cs => rfl
    | hole name =>
      cases name with
      | nil => rfl
      | cons c cs => rw [Piece.rename, renamed, Option.getD_none, String.toList_ofList]
  simp [rename_eq_cuts, List.map_id'' hp]

/-- On every text, whether its braces match or not: the scan takes a character at least for each piece,
so it comes to an end.  A renaming without answers changes nothing.  A renaming that answers with names,
followed by another, is one renaming by both, and it renames the names of the text. -/
theorem rename_compose (template : String) {first : String → Option String}
    (h : GivesNames first) (second : String → Option String) :
    (pieces template.toList).length ≤ template.toList.length ∧
    rename (fun _ => none) template = template ∧
    rename second (rename first template) = rename (andThen first second) template ∧
    names (rename first template) = ((names template).map (renamed first)).eraseDups := by
  refine ⟨length_pieces_le _, rename_none template, ?_, ?_⟩
  · rw [rename_eq_cuts second, h.cuts_rename, rename_eq_cuts, List.map_map]
    congr 3
    funext p
    exact h.rename_rename second p
  · rw [names_eq_cuts, names_eq_cuts, h.cuts_rename, List.filterMap_map, eraseDups_map_eraseDups,
      List.map_filterMap]
    congr 2
    funext p
    exact h.name?_rename p

/-- A text with unmatched braces, a name with a brace in it and one that the text ends in. -/
theorem rename_compose_unmatched :
    let template := "\x7d\x7ba\x7bb\x7d\x7d \x7b:\x7bc\x7d\x7ba\x7bb"
    let first : String → Option String := fun name => if name = "a\x7bb" then some "c" else none
    let second : String → Option String := fun name => if name = "c" then some "\x7b" else none
    GivesNames first ∧ names template = ["a\x7bb", "c"] ∧ names (rename first template) = ["c"] ∧
      rename second (rename first template) = rename (andThen first second) template ∧
      rename (andThen first second) template =
        "\x7d\x7b\x7b\x7d\x7d \x7b:\x7b\x7b\x7d\x7b\x7b" := by
  intro template first second
  have hfirst : GivesNames first := by
    intro name answer hn
    have hc : answer = "c" := by
      simp only [first] at hn
      split at hn
      · exact (Option.some.inj hn).symm
      · cases hn
    rw [hc]
    exact ⟨by decide, List.forall_mem_singleton.mpr (by decide)⟩
  obtain ⟨-, -, hcompose, hnames⟩ := rename_compose template hfirst second
  have htemplate : names template = ["a\x7bb", "c"] := by decide +kernel
  rw [htemplate] at hnames
  refine ⟨hfirst, htemplate, hnames.trans (by decide +kernel), hcompose, by decide +kernel⟩

end Template
end RegisterMachine
