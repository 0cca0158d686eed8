import Mathlib.Data.List.DropRight
import RegisterMachine.Program.Diagnostic
import RegisterMachine.Proofs.Program.Grammar
import RegisterMachine.Proofs.Text.Layout
import RegisterMachine.Proofs.Text.Lines

/-!
# Diagnostics of refused lines

A text is refused for a line that starts with a directive, and the number in the refusal is the place
of that line among the lines of the text.  So the report on it finds the line again, and since the
line has a token there is something to mark.  `Marked` says where the marks are to stand without
saying how the blanks are taken off: the line falls into blanks, what is marked, blanks again and
carriage returns, and what is marked neither begins nor ends in a blank.
-/

namespace RegisterMachine

namespace Text

theorem byteLength_pos {cs : List Char} (h : cs ≠ []) : 1 ≤ byteLength cs := by
  cases cs with
  | nil => exact absurd rfl h
  | cons c cs =>
    have hc := c.utf8Size_pos
    show 1 ≤ c.utf8Size + byteLength cs
    omega

@[simp] theorem trimEndIf_append_rtakeWhile (p : Char → Bool) (cs : List Char) :
    trimEndIf p cs ++ cs.rtakeWhile p = cs :=
  List.rdropWhile_append_rtakeWhile

theorem getLast?_trimEndIf {p : Char → Bool} {cs : List Char} {c : Char}
    (h : (trimEndIf p cs).getLast? = some c) : p c = false := by
  obtain ⟨hne, hc⟩ := List.mem_getLast?_eq_getLast h
  rw [hc, ← Bool.not_eq_true]
  exact List.rdropWhile_last_not p cs hne

@[simp] theorem takeWhile_append_trimStart (cs : List Char) :
    cs.takeWhile isBlank ++ trimStart cs = cs :=
  List.takeWhile_append_dropWhile

theorem head?_trimStart {cs : List Char} {c : Char} (h : (trimStart cs).head? = some c) :
    isBlank c = false := by
  have hnot := List.head?_dropWhile_not isBlank cs
  rw [trimStart] at h
  rw [h] at hnot
  exact hnot

/-- The blanks in front are those that `trimStart` takes off. -/
theorem byteLength_eq_add_trimStart (cs : List Char) :
    byteLength cs = byteLength (cs.takeWhile isBlank) + byteLength (trimStart cs) := by
  rw [← byteLength_append, takeWhile_append_trimStart]

/-- What stands in a token stands on the line. -/
theorem Layout.mem_line {ts : List String} {line : List Char} (h : Layout ts line) :
    ∀ t ∈ ts, ∀ c ∈ t.toList, c ∈ line := by
  induction h with
  | nil => simp
  | comment text => simp
  | separator hc rest ih => exact fun t ht c hmem => List.mem_cons_of_mem _ (ih t ht c hmem)
  | token ht hend rest ih =>
    refine List.forall_mem_cons.mpr ⟨fun c hc => List.mem_append_left _ hc, ?_⟩
    exact fun t ht c hc => List.mem_append_right _ (ih t ht c hc)

end Text

namespace Diagnostic

/-- The line is shown without the carriage returns at its end, and marked is what is left of it
between the blanks on either side. -/
structure Marked (line shown lead body : List Char) : Prop where
  returns : ∃ n, line = shown ++ List.replicate n '\r'
  shown_last : shown.getLast? ≠ some '\r'
  parts : ∃ tail, shown = lead ++ (body ++ tail) ∧ ∀ c ∈ tail, Text.isBlank c = true
  lead_blank : ∀ c ∈ lead, Text.isBlank c = true
  body_head : ∀ c, body.head? = some c → Text.isBlank c = false
  body_last : ∀ c, body.getLast? = some c → Text.isBlank c = false

def shown (line : List Char) : List Char :=
  Text.trimEndIf (· == '\r') line

theorem marked (line : List Char) :
    Marked line (shown line) ((shown line).takeWhile Text.isBlank) (Text.trim (shown line)) := by
  have hreturns := Text.trimEndIf_append_rtakeWhile (· == '\r') line
  have htail := Text.trimEndIf_append_rtakeWhile Text.isBlank (Text.trimStart (shown line))
  refine ⟨⟨(line.rtakeWhile (· == '\r')).length, ?_⟩, ?_,
    ⟨(Text.trimStart (shown line)).rtakeWhile Text.isBlank, ?_, ?_⟩, ?_, ?_, ?_⟩
  · have hall : ∀ c ∈ line.rtakeWhile (· == '\r'), c = '\r' := fun c hc =>
      eq_of_beq (List.mem_rtakeWhile_imp (p := (· == '\r')) hc)
    rw [← List.eq_replicate_iff.mpr ⟨rfl, hall⟩]
    exact hreturns.symm
  · intro hlast
    cases Text.getLast?_trimEndIf hlast
  · rw [Text.trim, htail, Text.takeWhile_append_trimStart]
  · exact fun c hc => List.mem_rtakeWhile_imp hc
  · exact fun c hc => List.mem_takeWhile_imp hc
  · intro c hc
    have hstart : (Text.trimStart (shown line)).head? = some c := by
      rw [← htail, List.head?_append]
      exact Option.or_eq_some_iff.mpr (.inl hc)
    exact Text.head?_trimStart hstart
  · exact fun c hc => Text.getLast?_trimEndIf hc

/-- Every character that is no blank is marked. -/
theorem Marked.mem_body {line shown lead body : List Char} (h : Marked line shown lead body)
    {c : Char} (hc : c ∈ line) (hb : Text.isBlank c = false) : c ∈ body := by
  obtain ⟨n, hline⟩ := h.returns
  obtain ⟨tail, hshown, htail⟩ := h.parts
  rw [hline, hshown, List.mem_append, List.mem_append, List.mem_append] at hc
  rcases hc with (hc | hc | hc) | hc
  · rw [h.lead_blank c hc] at hb
    cases hb
  · exact hc
  · rw [htail c hc] at hb
    cases hb
  · rw [List.eq_of_mem_replicate hc] at hb
    cases hb

theorem Marked.byteLength_le {line shown lead body : List Char}
    (h : Marked line shown lead body) :
    Text.byteLength lead + Text.byteLength body ≤ Text.byteLength shown := by
  obtain ⟨tail, hshown, -⟩ := h.parts
  simp only [hshown, Text.byteLength_append]
  omega

/-- As many spaces as there are bytes in front, and a mark for each byte of what is marked. -/
def marks (lead body : List Char) : List Char :=
  List.replicate (Text.byteLength lead) ' ' ++ List.replicate (Text.byteLength body) '^'

def reportLines (file : String) (number : Nat) (problem : String) (shown lead body : List Char) :
    List String :=
  [s!"error: {problem}", s!" --> {file}:{number}", "  |",
    s!"{Text.padLeft 4 (toString number)} | {String.ofList shown}",
    s!"  | {String.ofList (marks lead body)}"]

variable {line : List Char}

/-- The two widths that are computed are those of the blanks in front and of what is marked. -/
theorem excerpt_eq (number : Nat) (h : Text.trim (shown line) ≠ []) :
    excerpt number line =
      "  |\n" ++ Text.padLeft 4 (toString number) ++ " | " ++ String.ofList (shown line) ++
        "\n  | " ++ String.ofList (marks ((shown line).takeWhile Text.isBlank)
          (Text.trim (shown line))) ++ "\n" := by
  have hwidth := Nat.max_eq_left (Text.byteLength_pos h)
  have hmarks : List.replicate (Text.byteLength (shown line) -
        Text.byteLength (Text.trimStart (shown line))) ' ' ++
      List.replicate (max (Text.byteLength (Text.trim (shown line))) 1) '^' =
        marks ((shown line).takeWhile Text.isBlank) (Text.trim (shown line)) := by
    rw [Text.byteLength_eq_add_trimStart (shown line), Nat.add_sub_cancel, hwidth]
    rfl
  rw [← hmarks]
  rfl

theorem render_badLine {source : String} {number : Nat} (file problem : String)
    (hl : (Text.lines source.toList)[number - 1]? = some line)
    (h : Text.trim (shown line) ≠ []) :
    render file source (.badLine number problem) =
      String.join ((reportLines file number problem (shown line)
        ((shown line).takeWhile Text.isBlank) (Text.trim (shown line))).map (· ++ "\n")) := by
  have hrender : render file source (.badLine number problem) =
      "error: " ++ problem ++ "\n --> " ++ file ++ ":" ++ toString number ++ "\n" ++
        excerpt number line := by
    simp only [render, hl]
    rfl
  rw [hrender, excerpt_eq number h]
  -- The literals are cut at other places on the two sides.
  apply String.toList_inj.mp
  simp only [reportLines, List.map_cons, List.map_nil, String.join, List.foldl_cons,
    List.foldl_nil, String.toList_append, List.append_assoc]
  rfl

end Diagnostic

namespace SourceLine

theorem Flaw.dotted {tokens : List String} {problem : String} (h : Flaw tokens problem) :
    ∃ first rest, tokens = first :: rest ∧ first.toList.head? = some '.' := by
  have hdirective (k : Kind) : k.directive.toList.head? = some '.' := by
    cases k <;> rfl
  cases h with
  | unknownDirective arguments dotted => exact ⟨_, arguments, rfl, dotted⟩
  | argumentCount k => exact ⟨_, _, rfl, hdirective k⟩
  | invalidLiteral k name => exact ⟨_, _, rfl, hdirective k⟩

end SourceLine

/-- A line that has a form is a program by itself. -/
theorem Program.parse_isOk_of_line {line : List Char} (hn : '\n' ∉ line)
    (h : SourceLine.WellFormed (Text.tokens line)) :
    ∃ program, parse (String.ofList line) = .ok program := by
  rw [parse_isOk_iff, String.toList_ofList]
  cases line with
  | nil => simp [Text.lines]
  | cons c cs =>
    rw [Text.lines_eq_singleton hn (List.cons_ne_nil c cs)]
    intro l hl
    rw [List.mem_singleton.mp hl]
    exact h

namespace Diagnostic

/-- A line that starts with a directive has something to mark. -/
theorem trim_ne_nil {line : List Char} {first : String} {rest : List String}
    (ht : Text.tokens line = first :: rest) (hd : first.toList.head? = some '.') :
    Text.trim (shown line) ≠ [] := by
  have hdot : '.' ∈ line :=
    (Text.tokens_eq_iff_layout.mp ht).mem_line first List.mem_cons_self '.' (List.mem_of_mem_head? hd)
  exact List.ne_nil_of_mem ((marked line).mem_body hdot rfl)

/-- A text that is refused is refused for one of its lines, the first token of which is a directive
and before which every line is a program by itself.  The report gives the message, the place, and
always the line itself with the marks below it: as many spaces as there are bytes of blanks in front
and as many marks as there are bytes in the rest without the blanks at its end, which is at least
one.  Together they do not run past the end of the line. -/
theorem render_refused (file source : String) (cause : Cause)
    (h : Program.parse source = .error cause) :
    ∃ number problem line shown lead body,
      cause = .badLine number problem ∧ 1 ≤ number ∧
      number ≤ (Text.lines source.toList).length ∧
      (Text.lines source.toList)[number - 1]? = some line ∧
      (∃ first rest, Text.tokens line = first :: rest ∧ first.toList.head? = some '.') ∧
      (∀ earlier ∈ (Text.lines source.toList).take (number - 1),
        ∃ program, Program.parse (String.ofList earlier) = .ok program) ∧
      Marked line shown lead body ∧
      Text.byteLength (Text.trimStart shown) ≤ Text.byteLength shown ∧
      1 ≤ Text.byteLength body ∧
      Text.byteLength lead + Text.byteLength body ≤ Text.byteLength shown ∧
      render file source cause =
        String.join ((reportLines file number problem shown lead body).map (· ++ "\n")) := by
  obtain ⟨before, line, after, problem, hlines, hbefore, hflaw, rfl⟩ :=
    Program.exists_flaw_of_error h
  obtain ⟨first, rest, ht, hd⟩ := hflaw.dotted
  have hbody := trim_ne_nil ht hd
  have hmarked := marked line
  have hline : (Text.lines source.toList)[before.length + 1 - 1]? = some line := by
    rw [hlines, Nat.add_sub_cancel, List.getElem?_append_right (Nat.le_refl _), Nat.sub_self]
    rfl
  refine ⟨before.length + 1, problem, line, shown line, (shown line).takeWhile Text.isBlank,
    Text.trim (shown line), rfl, by omega, ?_, hline, ⟨first, rest, ht, hd⟩, ?_, hmarked, ?_,
    Text.byteLength_pos hbody, hmarked.byteLength_le, render_badLine file problem hline hbody⟩
  · rw [hlines, List.length_append, List.length_cons]
    omega
  · rw [Nat.add_sub_cancel, hlines, List.take_left]
    intro earlier hmem
    have hearlier : earlier ∈ Text.lines source.toList := by
      rw [hlines]
      exact List.mem_append_left _ hmem
    exact Program.parse_isOk_of_line (Text.not_mem_newline_of_mem_lines hearlier)
      (hbefore earlier hmem)
  · rw [Text.byteLength_eq_add_trimStart (shown line)]
    omega

/-- A tab and a wide blank in front, a letter of two bytes, and a blank and two carriage returns at
the end, of which the second belongs to the line end. -/
theorem render_refused_wide :
    let source := "NOP\n\t\u3000.wörd x \r\r\nHALT"
    let cause : Cause := .badLine 2 "unknown directive `.wörd`"
    let report := "error: unknown directive `.wörd`\n --> a.rvm:2\n  |\n" ++
      "   2 | \t\u3000.wörd x \n  |     ^^^^^^^^\n"
    Program.parse source = .error cause ∧ render "a.rvm" source cause = report ∧
      ∃ line shown lead body, (Text.lines source.toList)[1]? = some line ∧
        Marked line shown lead body ∧
        Text.byteLength lead + Text.byteLength body ≤ Text.byteLength shown ∧
        String.join ((reportLines "a.rvm" 2 "unknown directive `.wörd`" shown lead body).map
          (· ++ "\n")) = report := by
  intro source cause report
  have hparse : Program.parse source = .error cause := by decide +kernel
  have hrender : render "a.rvm" source cause = report := by decide +kernel
  obtain ⟨number, problem, line, shown, lead, body, hc, -, -, hl, -, -, hm, -, -, hle, hr⟩ :=
    render_refused "a.rvm" source cause hparse
  obtain ⟨rfl, rfl⟩ := Cause.badLine.inj hc
  exact ⟨hparse, hrender, line, shown, lead, body, hl, hm, hle, hr.symm.trans hrender⟩

end Diagnostic
end RegisterMachine
