import RegisterMachine.Text.Line

/-!
# Lines of texts that are put together

A line feed ends a line whatever follows it, so the lines of a text that is empty or ends in a line
feed are not touched by what is written behind it.
-/

namespace RegisterMachine
namespace Text

/-- What is written behind the text starts a new line. -/
def Closed (cs : List Char) : Prop :=
  cs = [] ∨ cs.getLast? = some '\n'

theorem Closed.tail {c : Char} {cs : List Char} (h : Closed (c :: cs)) : Closed cs := by
  cases cs with
  | nil => exact .inl rfl
  | cons d ds =>
    obtain h | h := h
    · cases h
    · exact .inr (by rwa [List.getLast?_cons_cons] at h)

theorem lines_eq_nil {cs : List Char} (h : lines cs = []) : cs = [] := by
  revert h
  fun_cases lines cs <;> simp

/-- A character that ends no line stands at the beginning of the first line. -/
theorem lines_cons {c : Char} {cs l : List Char} {ls : List (List Char)} (hc : c ≠ '\n')
    (hr : c = '\r' → cs.head? ≠ some '\n') (hl : lines cs = l :: ls) :
    lines (c :: cs) = (c :: l) :: ls := by
  rw [lines.eq_4 c cs hc, hl]
  rintro ds rfl rfl
  exact hr rfl rfl

theorem head?_ne_newline {c : Char} {cs : List Char}
    (h : ∀ ds : List Char, c = '\r' → cs = '\n' :: ds → False) :
    c = '\r' → cs.head? ≠ some '\n' := by
  intro hc hh
  obtain ⟨ds, hds⟩ := List.head?_eq_some_iff.mp hh
  exact h ds hc hds

/-- A line feed ends the line in front of it. -/
theorem lines_append_newline {l : List Char} (h : ∀ c ∈ l, c ≠ '\n' ∧ c ≠ '\r') (rest : List Char) :
    lines (l ++ '\n' :: rest) = l :: lines rest := by
  induction l with
  | nil => rfl
  | cons c l ih =>
    obtain ⟨hc, hl⟩ := List.forall_mem_cons.mp h
    exact lines_cons hc.1 (fun he => absurd he hc.2) (ih hl)

/-- Without a line feed there is one line. -/
theorem lines_eq_singleton {l : List Char} (h : '\n' ∉ l) (hne : l ≠ []) : lines l = [l] := by
  induction l with
  | nil => exact absurd rfl hne
  | cons c l ih =>
    have hc : c ≠ '\n' := (List.ne_of_not_mem_cons h).symm
    have hl : '\n' ∉ l := List.not_mem_of_not_mem_cons h
    cases l with
    | nil =>
      rw [lines.eq_4 c [] hc (fun _ _ he => nomatch he)]
      rfl
    | cons d l =>
      have hhead : c = '\r' → (d :: l).head? ≠ some '\n' := fun _ he =>
        hl (List.mem_of_mem_head? he)
      exact lines_cons hc hhead (ih hl (List.cons_ne_nil d l))

def unlines : List String → String
  | [] => ""
  | l :: ls => l ++ "\n" ++ unlines ls

theorem lines_unlines_append {ls : List String}
    (h : ∀ l ∈ ls, ∀ c ∈ l.toList, c ≠ '\n' ∧ c ≠ '\r') (rest : String) :
    lines (unlines ls ++ rest).toList = ls.map String.toList ++ lines rest.toList := by
  induction ls with
  | nil => rw [unlines, String.empty_append, List.map_nil, List.nil_append]
  | cons l ls ih =>
    obtain ⟨hl, hls⟩ := List.forall_mem_cons.mp h
    have happend : (unlines (l :: ls) ++ rest).toList =
        l.toList ++ '\n' :: (unlines ls ++ rest).toList := by
      simp only [unlines, String.toList_append, List.append_assoc]
      rfl
    rw [happend, lines_append_newline hl, ih hls, List.map_cons, List.cons_append]

theorem not_mem_newline_of_mem_lines {cs l : List Char} (h : l ∈ lines cs) : '\n' ∉ l := by
  induction cs using lines.induct generalizing l with
  | case1 => cases h
  | case2 cs ih =>
    rcases List.mem_cons.mp h with rfl | h
    · exact List.not_mem_nil
    · exact ih h
  | case3 cs ih =>
    rcases List.mem_cons.mp h with rfl | h
    · exact List.not_mem_nil
    · exact ih h
  | case4 c cs hc hr hnil ih =>
    obtain rfl := lines_eq_nil hnil
    rw [lines.eq_4 c [] hc hr] at h
    rw [List.mem_singleton.mp h, List.mem_singleton]
    exact Ne.symm hc
  | case5 c cs hc hr first rest hl ih =>
    rw [lines_cons hc (head?_ne_newline hr) hl] at h
    rw [hl] at ih
    rcases List.mem_cons.mp h with rfl | h
    · exact List.not_mem_cons_of_ne_of_not_mem (Ne.symm hc) (ih (.head _))
    · exact ih (.tail _ h)

theorem lines_append {cs : List Char} (h : Closed cs) (ds : List Char) :
    lines (cs ++ ds) = lines cs ++ lines ds := by
  induction cs using lines.induct with
  | case1 => rfl
  | case2 cs ih =>
    show [] :: lines (cs ++ ds) = [] :: (lines cs ++ lines ds)
    rw [ih h.tail]
  | case3 cs ih =>
    show [] :: lines (cs ++ ds) = [] :: (lines cs ++ lines ds)
    rw [ih h.tail.tail]
  | case4 c cs hc hr hnil ih =>
    -- The text would end in `c`.
    obtain rfl := lines_eq_nil hnil
    obtain h | h := h
    · cases h
    · exact absurd (Option.some.inj h) hc
  | case5 c cs hc hr l ls hl ih =>
    have hhead := head?_ne_newline hr
    have hhead' : c = '\r' → (cs ++ ds).head? ≠ some '\n' := by
      cases cs with
      | nil => cases hl
      | cons d rest => exact hhead
    have happend : lines (cs ++ ds) = l :: (ls ++ lines ds) := by
      rw [ih h.tail, hl, List.cons_append]
    rw [List.cons_append, lines_cons hc hhead' happend, lines_cons hc hhead hl, List.cons_append]

end Text
end RegisterMachine
