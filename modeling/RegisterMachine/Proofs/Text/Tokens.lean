import RegisterMachine.Program.Instruction

/-!
# The tokens of a line that is put together

A token is read back from a line in which separators stand around it.
-/

namespace RegisterMachine
namespace Text

/-- A separator opens no comment. -/
theorem takeWhile_separator {s : Char} (hs : isSeparator s = true) (rest : List Char) :
    (s :: rest).takeWhile (· != '#') = s :: rest.takeWhile (· != '#') := by
  refine List.takeWhile_cons_of_pos (bne_iff_ne.mpr ?_)
  rintro rfl
  cases hs

theorem tokens_separator {s : Char} (hs : isSeparator s = true) (rest : List Char) :
    tokens (s :: rest) = tokens rest := by
  have hsplit := List.splitOnP_append_cons [] (rest.takeWhile (· != '#')) hs
  rw [List.nil_append] at hsplit
  rw [tokens, takeWhile_separator hs, hsplit]
  rfl

@[simp] theorem tokens_comment (text : List Char) : tokens ('#' :: text) = [] :=
  rfl

/-- Some characters, none of which separates tokens or starts a comment. -/
structure IsToken (t : String) : Prop where
  ne_nil : t.toList ≠ []
  plain : ∀ c ∈ t.toList, isSeparator c = false ∧ c ≠ '#'

namespace IsToken

variable {t : String}

theorem takeWhile_append (h : IsToken t) (rest : List Char) :
    (t.toList ++ rest).takeWhile (· != '#') = t.toList ++ rest.takeWhile (· != '#') :=
  List.takeWhile_append_of_pos fun c hc => bne_iff_ne.mpr (h.plain c hc).2

theorem filter_cons (h : IsToken t) (pieces : List (List Char)) :
    (t.toList :: pieces).filter (· ≠ []) = t.toList :: pieces.filter (· ≠ []) :=
  List.filter_cons_of_pos (decide_eq_true h.ne_nil)

theorem tokens_append (h : IsToken t) {s : Char} (hs : isSeparator s = true) (rest : List Char) :
    tokens (t.toList ++ s :: rest) = t :: tokens rest := by
  have hsplit := List.splitOnP_append_cons_of_forall_mem (fun c hc => (h.plain c hc).1) s hs
    (rest.takeWhile (· != '#'))
  rw [tokens, h.takeWhile_append, takeWhile_separator hs, hsplit, h.filter_cons, List.map_cons,
    String.ofList_toList, tokens]

theorem tokens_toList (h : IsToken t) : tokens t.toList = [t] := by
  have htake := h.takeWhile_append []
  rw [List.append_nil, List.takeWhile_nil, List.append_nil] at htake
  rw [tokens, htake, List.splitOnP_eq_singleton fun c hc => (h.plain c hc).1, h.filter_cons,
    List.filter_nil, List.map_cons, String.ofList_toList, List.map_nil]

/-- A token breaks no line. -/
theorem ne_newline (h : IsToken t) : ∀ c ∈ t.toList, c ≠ '\n' ∧ c ≠ '\r' := by
  intro c hc
  have hs := (h.plain c hc).1
  constructor
  · rintro rfl
    cases hs
  · rintro rfl
    cases hs

end IsToken
end Text
end RegisterMachine
