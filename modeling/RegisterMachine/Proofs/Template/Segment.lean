import Mathlib.Data.List.Basic
import RegisterMachine.Proofs.Template.Cut

/-!
# Well-formed templates

A well-formed template is a sequence of segments: texts without braces, doubled braces, and holes with
a name and possibly a specification.  Their pieces, one segment after the other, are a cut of the
template, in whatever order they stand.  So a renaming goes segment by segment, and each name is asked
for once, in order.
-/

namespace RegisterMachine
namespace Template

inductive Segment where
  | plain (text : String)
  | opening
  | closing
  | hole (name : String) (spec : Option String)

def BraceFree (s : String) : Prop :=
  ∀ c ∈ s.toList, c ≠ '{' ∧ c ≠ '}'

namespace Segment

/-- Texts, names and specifications have no braces, and names no colon. -/
def WellFormed : Segment → Prop
  | plain text => BraceFree text
  | opening => True
  | closing => True
  | hole name spec =>
    BraceFree name ∧ (∀ c ∈ name.toList, c ≠ ':') ∧ ∀ s, spec = some s → BraceFree s

def written : Segment → String
  | plain text => text
  | opening => "\x7b\x7b"
  | closing => "\x7d\x7d"
  | hole name none => "\x7b" ++ name ++ "\x7d"
  | hole name (some spec) => "\x7b" ++ name ++ ":" ++ spec ++ "\x7d"

def name? : Segment → Option String
  | hole name _ => if name = "" then none else some name
  | _ => none

def withName (name : String) : Segment → Segment
  | hole _ spec => hole name spec
  | s => s

def rename (new : String → Option String) (s : Segment) : Segment :=
  match s.name? with
  | some name => s.withName (renamed new name)
  | none => s

def renameM {m : Type → Type} [Monad m] (ask : String → m (Option String)) (s : Segment) :
    m Segment := do
  match s.name? with
  | some name => return s.withName ((← ask name).getD name)
  | none => return s

def ending : Option String → List Char
  | none => ['}']
  | some spec => ':' :: (spec.toList ++ ['}'])

def pieces : Segment → List Piece
  | hole name spec => .hole name.toList :: (ending spec).map fun c => .text [c]
  | s => s.written.toList.map fun c => .text [c]

@[simp] theorem toList_written_hole (name : String) (spec : Option String) :
    (hole name spec).written.toList = '{' :: (name.toList ++ ending spec) := by
  cases spec with
  | none => simp [written, ending]
  | some spec => simp [written, ending]

end Segment

def write (ss : List Segment) : String :=
  String.join (ss.map Segment.written)

@[simp] theorem toList_write_cons (s : Segment) (ss : List Segment) :
    (write (s :: ss)).toList = s.written.toList ++ (write ss).toList := by
  rw [write, List.map_cons, String.join_cons, String.toList_append]
  rfl

/-! ## The cut of segments -/

theorem Cut.chars {cs : List Char} (h : ∀ c ∈ cs, c ≠ '{') {ps : List Piece} {rest : List Char}
    (hrest : Cut ps rest) : Cut (cs.map (fun c => .text [c]) ++ ps) (cs ++ rest) := by
  induction cs with
  | nil => exact hrest
  | cons c cs ih =>
    obtain ⟨hc, hcs⟩ := List.forall_mem_cons.mp h
    exact .char hc (ih hcs)

namespace Segment

theorem endsName_ending (spec : Option String) (cs : List Char) :
    EndsName (ending spec ++ cs) := by
  cases spec with
  | none => exact endsName_cons rfl _
  | some spec => exact endsName_cons rfl _

theorem ending_ne {spec : Option String} (h : ∀ s, spec = some s → BraceFree s) :
    ∀ c ∈ ending spec, c ≠ '{' := by
  cases spec with
  | none => simp [ending]
  | some spec =>
    have hspec := h spec rfl
    intro c hc
    simp only [ending, List.mem_cons, List.mem_append, List.not_mem_nil, or_false] at hc
    obtain rfl | hc | rfl := hc
    · decide
    · exact (hspec c hc).1
    · decide

theorem WellFormed.cut {s : Segment} (h : s.WellFormed) {ps : List Piece} {cs : List Char}
    (rest : Cut ps cs) : Cut (s.pieces ++ ps) (s.written.toList ++ cs) := by
  cases s with
  | plain text => exact .chars (fun c hc => (h c hc).1) rest
  | opening => exact .braces rest
  | closing => exact .char (by decide) (.char (by decide) rest)
  | hole name spec =>
    obtain ⟨hname, hcolon, hspec⟩ := h
    have hends := rest.chars (ending_ne hspec)
    have hfirst : name.toList.head? ≠ some '{' :=
      fun hc => (hname '{' (List.mem_of_head? hc)).1 rfl
    rw [toList_written_hole, List.cons_append, List.append_assoc]
    refine .hole (fun c hc => ?_) hfirst (endsName_ending spec cs) hends
    exact isNameChar_iff.mpr ⟨(hname c hc).2, hcolon c hc⟩

theorem filterMap_chars (cs : List Char) :
    (cs.map fun c => Piece.text [c]).filterMap Piece.name? = [] := by
  rw [List.filterMap_map]
  exact List.filterMap_eq_nil_iff.mpr fun c _ => rfl

@[simp] theorem filterMap_pieces (s : Segment) :
    s.pieces.filterMap Piece.name? = s.name?.toList := by
  cases s with
  | plain text => exact filterMap_chars text.toList
  | opening => exact filterMap_chars opening.written.toList
  | closing => exact filterMap_chars closing.written.toList
  | hole name spec =>
    have hending := filterMap_chars (ending spec)
    rw [pieces, name?]
    by_cases hn : name = ""
    · rw [if_pos hn, hn, List.filterMap_cons_none rfl, hending]
      rfl
    · rw [if_neg hn, List.filterMap_cons_some (Piece.name?_hole hn), hending]
      rfl

end Segment

theorem cut_write {ss : List Segment} (h : ∀ s ∈ ss, s.WellFormed) :
    Cut (ss.flatMap Segment.pieces) (write ss).toList := by
  induction ss with
  | nil => exact .nil
  | cons s ss ih =>
    obtain ⟨hs, hss⟩ := List.forall_mem_cons.mp h
    rw [toList_write_cons, List.flatMap_cons]
    exact hs.cut (ih hss)

/-! ## Renaming segments -/

section

variable {m : Type → Type} [Monad m] [LawfulMonad m] (ask : String → m (Option String))

theorem spellM_verbatim {s : Segment}
    (hp : s.pieces = s.written.toList.map fun c => Piece.text [c]) (hr : s.renameM ask = pure s)
    (ps : List Piece) :
    spellM ask (s.pieces ++ ps) = do
      let t ← s.renameM ask
      let rest ← spellM ask ps
      return t.written.toList ++ rest := by
  rw [hp, hr, pure_bind, spellM_chars, map_eq_pure_bind]

theorem spellM_segment (s : Segment) (ps : List Piece) :
    spellM ask (s.pieces ++ ps) = do
      let t ← s.renameM ask
      let rest ← spellM ask ps
      return t.written.toList ++ rest := by
  cases s with
  | plain text => exact spellM_verbatim ask rfl rfl ps
  | opening => exact spellM_verbatim ask rfl rfl ps
  | closing => exact spellM_verbatim ask rfl rfl ps
  | hole name spec =>
    rw [Segment.pieces, List.cons_append, spellM, spellM_chars, Segment.renameM, Segment.name?]
    by_cases hn : name = ""
    · have hp : (Piece.hole "".toList).renameM ask = pure (.hole []) := rfl
      rw [if_pos hn, hn, hp, pure_bind, pure_bind, bind_map_left]
      refine bind_congr fun rest => ?_
      rw [Segment.toList_written_hole]
      rfl
    · rw [if_neg hn, Piece.renameM_hole hn]
      simp only [bind_assoc, pure_bind, bind_map_left]
      refine bind_congr fun answer => bind_congr fun rest => ?_
      rw [Segment.withName, Segment.toList_written_hole, List.cons_append, List.append_assoc]
      rfl

theorem renameM_write {ss : List Segment} (h : ∀ s ∈ ss, s.WellFormed) :
    renameM ask (write ss) = write <$> ss.mapM (Segment.renameM ask) := by
  have hspell (ss : List Segment) : spellM ask (ss.flatMap Segment.pieces) =
      (fun ts => (write ts).toList) <$> ss.mapM (Segment.renameM ask) := by
    induction ss with
    | nil =>
      rw [List.mapM_nil, map_pure]
      rfl
    | cons s ss ih =>
      rw [List.flatMap_cons, spellM_segment, ih, List.mapM_cons]
      simp only [map_bind, map_pure, bind_map_left, toList_write_cons]
  rw [renameM_eq_spellM, (cut_write h).cuts_eq, hspell, ← comp_map]
  congr 1
  funext ts
  exact String.ofList_toList

end

@[simp] theorem Segment.renameM_pure {m : Type → Type} [Monad m] [LawfulMonad m]
    (new : String → Option String) (s : Segment) :
    s.renameM (fun name => (pure (new name) : m (Option String))) = pure (s.rename new) := by
  unfold renameM rename
  cases s.name? with
  | none => rfl
  | some name => exact pure_bind _ _

theorem rename_write (new : String → Option String) {ss : List Segment}
    (h : ∀ s ∈ ss, s.WellFormed) : rename new (write ss) = write (ss.map (Segment.rename new)) := by
  have hpure := funext (Segment.renameM_pure (m := Id) new)
  rw [rename, renameM_write _ h, hpure, List.mapM_pure]
  rfl

theorem names_write {ss : List Segment} (h : ∀ s ∈ ss, s.WellFormed) :
    names (write ss) = (ss.filterMap Segment.name?).eraseDups := by
  rw [names_eq_cuts, (cut_write h).cuts_eq, List.filterMap_flatMap,
    List.filterMap_eq_flatMap_toList]
  simp only [Segment.filterMap_pieces]

def noting (new : String → Option String) (name : String) :
    StateM (List String) (Option String) := do
  modify (· ++ [name])
  return new name

theorem Segment.renameM_noting (new : String → Option String) (s : Segment)
    (asked : List String) :
    (s.renameM (noting new)).run asked = pure (s.rename new, asked ++ s.name?.toList) := by
  unfold renameM rename
  cases s.name? with
  | none =>
    rw [Option.toList_none, List.append_nil]
    rfl
  | some name => rfl

theorem mapM_noting (new : String → Option String) (ss : List Segment) (asked : List String) :
    (ss.mapM (Segment.renameM (noting new))).run asked =
      pure (ss.map (Segment.rename new), asked ++ ss.filterMap Segment.name?) := by
  induction ss generalizing asked with
  | nil => rw [List.mapM_nil, StateT.run_pure, List.filterMap_nil, List.append_nil, List.map_nil]
  | cons s ss ih =>
    have hnames : (s :: ss).filterMap Segment.name? =
        s.name?.toList ++ ss.filterMap Segment.name? := by
      rw [List.filterMap_eq_flatMap_toList, List.filterMap_eq_flatMap_toList, List.flatMap_cons]
    rw [List.mapM_cons, StateT.run_bind, Segment.renameM_noting, pure_bind, StateT.run_bind, ih,
      pure_bind, StateT.run_pure, List.append_assoc, hnames, List.map_cons]

/-- A well-formed template is renamed segment by segment: each name is asked for once, in order, under
any effects, and what is not a name stays.  Its names are those of its holes. -/
theorem rename_segments {m : Type → Type} [Monad m] [LawfulMonad m] {ss : List Segment}
    (h : ∀ s ∈ ss, s.WellFormed) :
    (∀ ask : String → m (Option String),
      renameM ask (write ss) = write <$> ss.mapM (Segment.renameM ask)) ∧
    (∀ new : String → Option String,
      rename new (write ss) = write (ss.map (Segment.rename new)) ∧
      ((renameM (noting new) (write ss)).run []).run =
        (write (ss.map (Segment.rename new)), ss.filterMap Segment.name?)) ∧
    names (write ss) = (ss.filterMap Segment.name?).eraseDups := by
  refine ⟨fun ask => renameM_write ask h, fun new => ⟨rename_write new h, ?_⟩, names_write h⟩
  rw [renameM_write _ h, StateT.run_map, mapM_noting]
  rfl

/-- Holes between braces, one name twice and one hole without a name. -/
theorem rename_segments_adjacent :
    let ss : List Segment := [.opening, .hole "a" none, .closing, .plain "é:", .hole "" (some "?"),
      .hole "b" (some ">8"), .hole "a" none]
    let new : String → Option String := fun name => if name = "a" then some "\x7d:" else none
    (∀ s ∈ ss, s.WellFormed) ∧
      write ss = "\x7b\x7b\x7ba\x7d\x7d\x7dé:\x7b:?\x7d\x7bb:>8\x7d\x7ba\x7d" ∧
      rename new (write ss) =
        "\x7b\x7b\x7b\x7d:\x7d\x7d\x7dé:\x7b:?\x7d\x7bb:>8\x7d\x7b\x7d:\x7d" ∧
      ((renameM (noting new) (write ss)).run []).run.2 = ["a", "b", "a"] ∧
      names (write ss) = ["a", "b"] := by
  intro ss new
  have hss : ∀ s ∈ ss, s.WellFormed := by
    simp [ss, Segment.WellFormed, BraceFree]
  obtain ⟨-, hrename, hnames⟩ := rename_segments (m := Id) hss
  obtain ⟨hnew, hasked⟩ := hrename new
  refine ⟨hss, by decide +kernel, ?_, ?_, ?_⟩
  · rw [hnew]
    decide +kernel
  · rw [hasked]
    decide +kernel
  · rw [hnames]
    decide +kernel

end Template
end RegisterMachine
