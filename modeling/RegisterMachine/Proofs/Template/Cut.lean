import RegisterMachine.Template

/-!
# Cutting a template

`Cut` says how a text is made of single characters, of doubled opening braces and of holes with their
names.  Every text is cut in one way (`cut_cuts`, `Cut.cuts_eq`).  Closing braces are taken one at a
time here, while `pieces` takes two of them together where it can: what is done with the pieces does
not tell the difference, so a closing brace that ends a hole may stand before others.  What a renaming
asks and writes is then read off the cut.
-/

namespace RegisterMachine
namespace Template

theorem isNameChar_iff {c : Char} : isNameChar c = true ↔ c ≠ '}' ∧ c ≠ ':' := by
  simp [isNameChar]

/-- A name that stands before these characters does not go on into them. -/
def EndsName (cs : List Char) : Prop :=
  ∀ c, cs.head? = some c → isNameChar c = false

inductive Cut : List Piece → List Char → Prop
  | nil : Cut [] []
  | char {ps : List Piece} {c : Char} {cs : List Char} (hc : c ≠ '{') (rest : Cut ps cs) :
      Cut (.text [c] :: ps) (c :: cs)
  | braces {ps : List Piece} {cs : List Char} (rest : Cut ps cs) :
      Cut (.text ['{'] :: .text ['{'] :: ps) ('{' :: '{' :: cs)
  | hole {ps : List Piece} {name cs : List Char} (hname : ∀ c ∈ name, isNameChar c = true)
      (hfirst : name.head? ≠ some '{') (hend : EndsName cs) (rest : Cut ps cs) :
      Cut (.hole name :: ps) ('{' :: (name ++ cs))

def Piece.singles : Piece → List Piece
  | .text cs => cs.map fun c => .text [c]
  | .hole name => [.hole name]

/-- The pieces of a text with every character by itself. -/
def cuts (cs : List Char) : List Piece :=
  (pieces cs).flatMap Piece.singles

theorem endsName_cons {c : Char} (h : isNameChar c = false) (cs : List Char) :
    EndsName (c :: cs) := by
  intro d hd
  cases hd
  exact h

theorem endsName_dropWhile (cs : List Char) : EndsName (cs.dropWhile isNameChar) := by
  intro c hc
  have h := List.head?_dropWhile_not isNameChar cs
  rw [hc] at h
  exact h

theorem EndsName.takeWhile_append {cs : List Char} (h : EndsName cs) {name : List Char}
    (hname : ∀ c ∈ name, isNameChar c = true) : (name ++ cs).takeWhile isNameChar = name := by
  rw [List.takeWhile_append_of_pos hname]
  cases cs with
  | nil => exact List.append_nil name
  | cons c cs =>
    have hc : ¬isNameChar c = true := by
      rw [h c rfl]
      exact Bool.false_ne_true
    rw [List.takeWhile_cons_of_neg hc, List.append_nil]

theorem EndsName.dropWhile_append {cs : List Char} (h : EndsName cs) {name : List Char}
    (hname : ∀ c ∈ name, isNameChar c = true) : (name ++ cs).dropWhile isNameChar = cs := by
  have hspan := List.takeWhile_append_dropWhile (p := isNameChar) (l := name ++ cs)
  rw [h.takeWhile_append hname] at hspan
  exact List.append_cancel_left hspan

theorem EndsName.head?_append {cs : List Char} (h : EndsName cs) {name : List Char}
    (hfirst : name.head? ≠ some '{') : (name ++ cs).head? ≠ some '{' := by
  cases name with
  | nil =>
    intro hc
    have hfalse : isNameChar '{' = false := h '{' hc
    cases hfalse
  | cons c name => exact hfirst

theorem pieces_hole {cs : List Char} (h : cs.head? ≠ some '{') :
    pieces ('{' :: cs) =
      .hole (cs.takeWhile isNameChar) :: pieces (cs.dropWhile isNameChar) := by
  rw [pieces]
  rintro cs rfl
  exact h rfl

theorem cuts_hole {name cs : List Char} (hname : ∀ c ∈ name, isNameChar c = true)
    (hfirst : name.head? ≠ some '{') (hend : EndsName cs) :
    cuts ('{' :: (name ++ cs)) = .hole name :: cuts cs := by
  rw [cuts, pieces_hole (hend.head?_append hfirst), hend.takeWhile_append hname,
    hend.dropWhile_append hname]
  rfl

@[simp] theorem cuts_braces (cs : List Char) :
    cuts ('{' :: '{' :: cs) = .text ['{'] :: .text ['{'] :: cuts cs := by
  rw [cuts, pieces]
  rfl

theorem pieces_char {c : Char} {cs : List Char} (hc : c ≠ '{')
    (hclose : c = '}' → cs.head? ≠ some '}') : pieces (c :: cs) = .text [c] :: pieces cs := by
  rw [pieces]
  · rintro cs rfl rfl
    exact hc rfl
  · rintro cs rfl rfl
    exact hclose rfl rfl
  · rintro rfl
    exact hc rfl

/-- Closing braces can be taken one at a time. -/
theorem cuts_char {c : Char} (hc : c ≠ '{') (cs : List Char) :
    cuts (c :: cs) = .text [c] :: cuts cs := by
  induction cs generalizing c with
  | nil =>
    rw [cuts, pieces_char hc (by simp)]
    rfl
  | cons d cs ih =>
    by_cases h : c = '}' ∧ d = '}'
    · obtain ⟨rfl, rfl⟩ := h
      rw [ih hc, cuts, pieces]
      rfl
    · rw [cuts, pieces_char hc]
      · rfl
      · rintro rfl hd
        cases hd
        exact h ⟨rfl, rfl⟩

theorem Cut.cuts_eq {ps : List Piece} {cs : List Char} (h : Cut ps cs) : cuts cs = ps := by
  induction h with
  | nil =>
    rw [cuts, pieces]
    rfl
  | char hc rest ih => rw [cuts_char hc, ih]
  | braces rest ih => rw [cuts_braces, ih]
  | hole hname hfirst hend rest ih => rw [cuts_hole hname hfirst hend, ih]

theorem cut_cuts (cs : List Char) : Cut (cuts cs) cs := by
  unfold cuts
  fun_induction pieces cs with
  | case1 => exact .nil
  | case2 cs ih => exact .braces ih
  | case3 cs ih => exact .char (by decide) (.char (by decide) ih)
  | case4 cs hne ih =>
    have h : Cut (.hole (cs.takeWhile isNameChar) ::
        (pieces (cs.dropWhile isNameChar)).flatMap Piece.singles)
        ('{' :: (cs.takeWhile isNameChar ++ cs.dropWhile isNameChar)) := by
      refine .hole (List.all_eq_true.mp List.all_takeWhile) ?_ (endsName_dropWhile cs) ih
      rw [List.head?_takeWhile]
      cases cs with
      | nil =>
        intro hc
        cases hc
      | cons c cs =>
        intro hc
        obtain ⟨he, -⟩ := Option.filter_eq_some_iff.mp hc
        cases he
        exact hne cs rfl
    rwa [List.takeWhile_append_dropWhile] at h
  | case5 c cs _ _ hne ih => exact .char hne ih

/-! ## Names and renaming -/

/-- The name after a renaming: the answer, or the name itself without one. -/
def renamed (new : String → Option String) (name : String) : String :=
  (new name).getD name

namespace Piece

def name? : Piece → Option String
  | .hole (c :: cs) => some (String.ofList (c :: cs))
  | _ => none

def rename (new : String → Option String) : Piece → Piece
  | .hole (c :: cs) => .hole (renamed new (String.ofList (c :: cs))).toList
  | p => p

def renameM {m : Type → Type} [Monad m] (ask : String → m (Option String)) : Piece → m Piece
  | .hole (c :: cs) => do
    let answer ← ask (String.ofList (c :: cs))
    return .hole (answer.getD (String.ofList (c :: cs))).toList
  | p => pure p

section

variable {name : String} (h : name ≠ "")
include h

theorem exists_toList_eq_cons : ∃ c cs, name.toList = c :: cs ∧ String.ofList (c :: cs) = name := by
  cases hn : name.toList with
  | nil => exact absurd (String.toList_eq_nil_iff.mp hn) h
  | cons c cs => exact ⟨c, cs, rfl, by rw [← hn, String.ofList_toList]⟩

@[simp] theorem name?_hole : (hole name.toList).name? = some name := by
  obtain ⟨c, cs, hcs, hname⟩ := exists_toList_eq_cons h
  rw [hcs, name?, hname]

theorem rename_hole (new : String → Option String) :
    (hole name.toList).rename new = .hole (renamed new name).toList := by
  obtain ⟨c, cs, hcs, hname⟩ := exists_toList_eq_cons h
  rw [hcs, rename, hname]

theorem renameM_hole {m : Type → Type} [Monad m] (ask : String → m (Option String)) :
    (hole name.toList).renameM ask = do
      let answer ← ask name
      return .hole (answer.getD name).toList := by
  obtain ⟨c, cs, hcs, hname⟩ := exists_toList_eq_cons h
  rw [hcs, renameM, hname]

end

end Piece

theorem names_eq_cuts (template : String) :
    names template = ((cuts template.toList).filterMap Piece.name?).eraseDups := by
  have h (p : Piece) : p.singles.filterMap Piece.name? = [p].filterMap Piece.name? := by
    cases p with
    | text cs =>
      induction cs with
      | nil => rfl
      | cons c cs ih => exact ih
    | hole name => rfl
  have hsingles (ps : List Piece) :
      (ps.flatMap Piece.singles).filterMap Piece.name? = ps.filterMap Piece.name? := by
    induction ps with
    | nil => rfl
    | cons p ps ih =>
      rw [List.flatMap_cons, List.filterMap_append, h, ih, ← List.filterMap_append]
      rfl
  rw [cuts, hsingles]
  rfl

section

variable {m : Type → Type} [Monad m] (ask : String → m (Option String))

/-- Asks for the names of the pieces in order and writes them with the answers. -/
def spellM : List Piece → m (List Char)
  | [] => pure []
  | p :: ps => do
    let q ← p.renameM ask
    let rest ← spellM ps
    return q.chars ++ rest

variable [LawfulMonad m]

@[simp] theorem spellM_text (cs : List Char) (ps : List Piece) :
    spellM ask (.text cs :: ps) = (cs ++ ·) <$> spellM ask ps := by
  have hp : (Piece.text cs).renameM ask = pure (.text cs) := rfl
  rw [spellM, hp, pure_bind, map_eq_pure_bind]
  rfl

/-- Characters by themselves are written as they are. -/
@[simp] theorem spellM_chars (cs : List Char) (ps : List Piece) :
    spellM ask (cs.map (fun c => .text [c]) ++ ps) = (cs ++ ·) <$> spellM ask ps := by
  induction cs with
  | nil => exact (id_map _).symm
  | cons c cs ih =>
    rw [List.map_cons, List.cons_append, spellM_text, ih, ← comp_map]
    rfl

@[simp] theorem spellM_singles (ps : List Piece) :
    spellM ask (ps.flatMap Piece.singles) = spellM ask ps := by
  induction ps with
  | nil => rfl
  | cons p ps ih =>
    rw [List.flatMap_cons]
    cases p with
    | text cs =>
      rw [Piece.singles, spellM_chars, ih, spellM_text]
    | hole name =>
      rw [Piece.singles, List.singleton_append, spellM, spellM, ih]

theorem flatten_mapM {f : Piece → m (List Char)}
    (hf : ∀ p, f p = Piece.chars <$> p.renameM ask) (ps : List Piece) :
    List.flatten <$> ps.mapM f = spellM ask ps := by
  induction ps with
  | nil => rw [List.mapM_nil, map_pure, spellM, List.flatten_nil]
  | cons p ps ih =>
    rw [spellM, ← ih, List.mapM_cons, hf]
    simp only [map_bind, map_pure, bind_map_left, List.flatten_cons]

theorem renameM_eq_spellM (template : String) :
    Template.renameM ask template = String.ofList <$> spellM ask (cuts template.toList) := by
  rw [cuts, spellM_singles, Template.renameM]
  rw [← flatten_mapM ask _ (pieces template.toList), ← comp_map, map_eq_pure_bind]
  · rfl
  · intro p
    cases p with
    | text cs => exact (map_pure _ _).symm
    | hole name =>
      cases name with
      | nil => exact (map_pure _ _).symm
      | cons c cs =>
        rw [Piece.renameM, map_bind]
        refine bind_congr fun answer => ?_
        rw [map_pure]
        cases answer with
        | none =>
          rw [Option.getD_none, String.toList_ofList]
          rfl
        | some new => rfl

end

@[simp] theorem Piece.renameM_pure {m : Type → Type} [Monad m] [LawfulMonad m]
    (new : String → Option String) (p : Piece) :
    p.renameM (fun name => (pure (new name) : m (Option String))) = pure (p.rename new) := by
  cases p with
  | text cs => rfl
  | hole name =>
    cases name with
    | nil => rfl
    | cons c cs => exact pure_bind _ _

/-- Renaming writes the cut of the template again, with other names. -/
theorem rename_eq_cuts (new : String → Option String) (template : String) :
    Template.rename new template =
      String.ofList (((cuts template.toList).map (Piece.rename new)).flatMap Piece.chars) := by
  have hspell (ps : List Piece) :
      spellM (m := Id) (fun name => pure (new name)) ps =
        pure ((ps.map (Piece.rename new)).flatMap Piece.chars) := by
    induction ps with
    | nil => rfl
    | cons p ps ih =>
      rw [spellM, Piece.renameM_pure, pure_bind, ih, pure_bind]
      rfl
  rw [Template.rename, renameM_eq_spellM, hspell]
  rfl

end Template
end RegisterMachine
