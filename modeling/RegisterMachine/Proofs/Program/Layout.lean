import RegisterMachine.Proofs.Program.Grammar
import RegisterMachine.Proofs.Text.Layout
import RegisterMachine.Proofs.Text.Lines

/-!
# The layout of a program text

Of a line nothing matters but its tokens, so a program text may be laid out in any way.  In
particular its lines may end in a carriage return and a line feed: where a line had a carriage
return at its end already, one of the two is left on the line, and there it is a blank.
-/

namespace RegisterMachine

namespace Text

/-- The characters with a carriage return in front of each line feed. -/
def crlf (cs : List Char) : List Char :=
  cs.flatMap fun c => if c = '\n' then ['\r', '\n'] else [c]

@[simp] theorem crlf_newline (cs : List Char) : crlf ('\n' :: cs) = '\r' :: '\n' :: crlf cs :=
  rfl

theorem crlf_cons {c : Char} (hc : c ≠ '\n') (cs : List Char) : crlf (c :: cs) = c :: crlf cs := by
  rw [crlf, List.flatMap_cons, if_neg hc]
  rfl

theorem head?_crlf (cs : List Char) : (crlf cs).head? ≠ some '\n' := by
  cases cs with
  | nil => simp [crlf]
  | cons c cs =>
    by_cases hc : c = '\n'
    · simp [hc]
    · rw [crlf_cons hc]
      exact fun h => hc (Option.some.inj h)

/-- The same line, or the line with one more carriage return at its end. -/
def MaybeReturn (l l' : List Char) : Prop :=
  l' = l ∨ l' = l ++ ['\r']

theorem MaybeReturn.cons {l l' : List Char} (h : MaybeReturn l l') (c : Char) :
    MaybeReturn (c :: l) (c :: l') := by
  rcases h with rfl | rfl
  · exact .inl rfl
  · exact .inr rfl

theorem MaybeReturn.tokens_eq {l l' : List Char} (h : MaybeReturn l l') : tokens l' = tokens l := by
  rcases h with rfl | rfl
  · rfl
  · exact ((layout_tokens l).append_separator rfl).tokens_eq

theorem lines_crlf (cs : List Char) : List.Forall₂ MaybeReturn (lines cs) (lines (crlf cs)) := by
  induction cs using lines.induct with
  | case1 => exact .nil
  | case2 cs ih =>
    rw [crlf_newline]
    exact .cons (.inl rfl) ih
  | case3 cs ih =>
    -- Of two carriage returns the second belongs to the line end.
    have hl : lines ('\r' :: '\n' :: crlf cs) = [] :: lines (crlf cs) := rfl
    rw [crlf_cons (by decide), crlf_newline, lines_cons (by decide) (by simp) hl]
    exact .cons (.inr rfl) ih
  | case4 c cs hc hr hnil ih =>
    obtain rfl := lines_eq_nil hnil
    rw [crlf_cons hc]
    exact List.forall₂_same.mpr fun l _ => .inl rfl
  | case5 c cs hc hr l ls hl ih =>
    rw [hl, List.forall₂_cons_left_iff] at ih
    obtain ⟨l', ls', hreturn, hls, hl'⟩ := ih
    rw [lines_cons hc (head?_ne_newline hr) hl, crlf_cons hc,
      lines_cons hc (fun _ => head?_crlf cs) hl']
    exact .cons (hreturn.cons c) hls

end Text

namespace SourceLine

theorem parse_congr {l l' : List Char} (h : Text.tokens l' = Text.tokens l) (number : Nat) :
    parse number l' = parse number l := by
  unfold parse Instruction.parseLine
  rw [String.toList_ofList, String.toList_ofList, h]

theorem parseAll_congr {lines lines' : List (List Char)}
    (h : List.Forall₂ (fun l l' => Text.tokens l' = Text.tokens l) lines lines') (first : Nat) :
    parseAll first lines' = parseAll first lines := by
  induction h generalizing first with
  | nil => rfl
  | cons hl rest ih => rw [parseAll_eq_bind, parseAll_eq_bind, parse_congr hl, ih]

end SourceLine

/-- The tokens of a line are those that it is written with, whatever stands between them and
whatever the comment is.  A text with a carriage return in front of each line feed is read or
refused as the text without them. -/
theorem Program.parse_ignores_layout :
    (∀ (line : List Char) (ts : List String), Text.tokens line = ts ↔ Text.Layout ts line) ∧
    ∀ source : String, parse (String.ofList (Text.crlf source.toList)) = parse source := by
  refine ⟨fun line ts => Text.tokens_eq_iff_layout, fun source => ?_⟩
  have hlines := (Text.lines_crlf source.toList).imp fun _ _ h => h.tokens_eq
  rw [parse_eq_map, parse_eq_map, String.toList_ofList, SourceLine.parseAll_congr hlines]

end RegisterMachine
