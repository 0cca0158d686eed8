import RegisterMachine.Proofs.Text.Tokens

/-!
# The layout of a line

`Layout` says how tokens may be written on a line: blanks and commas stand in front of a token,
after it or between two of them, where there has to be at least one, and a comment may follow.
Every line is written in this way, and its tokens are those that it is written with
(`tokens_eq_iff_layout`).  So what is known of layouts carries over to tokens, without looking at
how a line is split.
-/

namespace RegisterMachine
namespace Text

/-- A token that stands before these characters does not go on into them. -/
def EndsToken (line : List Char) : Prop :=
  ∀ c, line.head? = some c → isSeparator c = true ∨ c = '#'

/-- The tokens are written on the line in this order. -/
inductive Layout : List String → List Char → Prop
  | nil : Layout [] []
  | comment (text : List Char) : Layout [] ('#' :: text)
  | separator {ts : List String} {c : Char} {line : List Char} (hc : isSeparator c = true)
      (rest : Layout ts line) : Layout ts (c :: line)
  | token {ts : List String} {t : String} {line : List Char} (ht : IsToken t)
      (hend : EndsToken line) (rest : Layout ts line) : Layout (t :: ts) (t.toList ++ line)

theorem endsToken_nil : EndsToken [] := by
  intro c hc
  cases hc

theorem endsToken_cons {c : Char} (h : isSeparator c = true ∨ c = '#') (line : List Char) :
    EndsToken (c :: line) := by
  intro d hd
  cases hd
  exact h

theorem IsToken.tokens_before {t : String} (h : IsToken t) {line : List Char}
    (hend : EndsToken line) : tokens (t.toList ++ line) = t :: tokens line := by
  cases line with
  | nil =>
    rw [List.append_nil, h.tokens_toList]
    rfl
  | cons c rest =>
    rcases hend c rfl with hc | rfl
    · rw [h.tokens_append hc, tokens_separator hc]
    · have hcut : tokens (t.toList ++ '#' :: rest) = tokens t.toList := by
        have htake := h.takeWhile_append []
        rw [List.append_nil] at htake
        rw [tokens, tokens, h.takeWhile_append, htake]
        rfl
      rw [hcut, h.tokens_toList, tokens_comment]

namespace Layout

variable {ts : List String} {line : List Char}

theorem single {t : String} (ht : IsToken t) : Layout [t] t.toList := by
  have h := Layout.token ht endsToken_nil .nil
  rwa [List.append_nil] at h

theorem tokens_eq (h : Layout ts line) : tokens line = ts := by
  induction h with
  | nil => rfl
  | comment text => exact tokens_comment text
  | separator hc rest ih => rw [tokens_separator hc, ih]
  | token ht hend rest ih => rw [ht.tokens_before hend, ih]

theorem isToken (h : Layout ts line) : ∀ t ∈ ts, IsToken t := by
  induction h with
  | nil => simp
  | comment text => simp
  | separator hc rest ih => exact ih
  | token ht hend rest ih => exact List.forall_mem_cons.mpr ⟨ht, ih⟩

theorem token_cons (h : Layout ts line) (hend : EndsToken line) {c : Char} {cs : List Char}
    (hc : isSeparator c = false ∧ c ≠ '#') (hcs : ∀ d ∈ cs, isSeparator d = false ∧ d ≠ '#') :
    Layout (String.ofList (c :: cs) :: ts) (c :: cs ++ line) := by
  have ht : IsToken (String.ofList (c :: cs)) := by
    constructor
    · rw [String.toList_ofList]
      exact List.cons_ne_nil c cs
    · rw [String.toList_ofList]
      exact List.forall_mem_cons.mpr ⟨hc, hcs⟩
  have hl := Layout.token ht hend h
  rwa [String.toList_ofList] at hl

/-- A character that can belong to a token belongs to the one behind it or is one by itself. -/
theorem exists_cons (h : Layout ts line) {c : Char} (hc : isSeparator c = false ∧ c ≠ '#') :
    ∃ ts', Layout ts' (c :: line) := by
  by_cases hend : EndsToken line
  · have hnone : ∀ d ∈ ([] : List Char), isSeparator d = false ∧ d ≠ '#' := by simp
    exact ⟨_, h.token_cons hend hc hnone⟩
  · cases h with
    | nil => exact absurd endsToken_nil hend
    | comment text => exact absurd (endsToken_cons (.inr rfl) text) hend
    | separator hs rest => exact absurd (endsToken_cons (.inl hs) _) hend
    | token ht hend' rest => exact ⟨_, rest.token_cons hend' hc ht.plain⟩

theorem append_separator (h : Layout ts line) {s : Char} (hs : isSeparator s = true) :
    Layout ts (line ++ [s]) := by
  induction h with
  | nil => exact .separator hs .nil
  | comment text => exact .comment (text ++ [s])
  | separator hc rest ih => exact .separator hc ih
  | @token ts t line ht hend rest ih =>
    rw [List.append_assoc]
    refine .token ht ?_ ih
    cases line with
    | nil => exact endsToken_cons (.inl hs) []
    | cons c line => exact endsToken_cons (hend c rfl) (line ++ [s])

end Layout

theorem exists_layout (line : List Char) : ∃ ts, Layout ts line := by
  induction line with
  | nil => exact ⟨[], .nil⟩
  | cons c line ih =>
    obtain ⟨ts, h⟩ := ih
    by_cases hm : c = '#'
    · rw [hm]
      exact ⟨[], .comment line⟩
    · cases hc : isSeparator c with
      | true => exact ⟨ts, .separator hc h⟩
      | false => exact h.exists_cons ⟨hc, hm⟩

/-- The tokens of a line are those that it is written with. -/
theorem tokens_eq_iff_layout {line : List Char} {ts : List String} :
    tokens line = ts ↔ Layout ts line := by
  refine ⟨fun h => ?_, Layout.tokens_eq⟩
  obtain ⟨ts', h'⟩ := exists_layout line
  rwa [← h, h'.tokens_eq]

theorem layout_tokens (line : List Char) : Layout (tokens line) line :=
  tokens_eq_iff_layout.mp rfl

/-! ## Gaps between tokens -/

/-- At least one blank or comma and nothing else. -/
structure IsGap (gap : List Char) : Prop where
  ne_nil : gap ≠ []
  separators : ∀ c ∈ gap, isSeparator c = true

theorem Layout.append_gap {ts : List String} {line gap : List Char} (h : Layout ts line)
    (hg : ∀ c ∈ gap, isSeparator c = true) : Layout ts (gap ++ line) := by
  induction gap with
  | nil => exact h
  | cons c gap ih =>
    obtain ⟨hc, hgap⟩ := List.forall_mem_cons.mp hg
    exact .separator hc (ih hgap)

theorem IsGap.endsToken {gap : List Char} (h : IsGap gap) (line : List Char) :
    EndsToken (gap ++ line) := by
  cases gap with
  | nil => exact absurd rfl h.ne_nil
  | cons c gap => exact endsToken_cons (.inl (h.separators c List.mem_cons_self)) (gap ++ line)

theorem toList_intercalate_cons_cons (gap t u : String) (us : List String) :
    (String.intercalate gap (t :: u :: us)).toList =
      t.toList ++ (gap.toList ++ (String.intercalate gap (u :: us)).toList) := by
  rw [String.toList_intercalate, String.toList_intercalate, List.map_cons, List.map_cons,
    List.intercalate_cons_cons, List.append_assoc]

theorem layout_intercalate {gap : String} (hg : IsGap gap.toList) {ts : List String}
    (h : ∀ t ∈ ts, IsToken t) : Layout ts (String.intercalate gap ts).toList := by
  induction ts with
  | nil => exact .nil
  | cons t ts ih =>
    obtain ⟨ht, hts⟩ := List.forall_mem_cons.mp h
    cases ts with
    | nil => exact .single ht
    | cons u us =>
      rw [toList_intercalate_cons_cons]
      exact .token ht (hg.endsToken _) ((ih hts).append_gap hg.separators)

theorem forall_mem_intercalate {P : Char → Prop} {gap : String} (hg : ∀ c ∈ gap.toList, P c)
    {ts : List String} (h : ∀ t ∈ ts, ∀ c ∈ t.toList, P c) :
    ∀ c ∈ (String.intercalate gap ts).toList, P c := by
  induction ts with
  | nil => exact fun c hc => nomatch hc
  | cons t ts ih =>
    obtain ⟨ht, hts⟩ := List.forall_mem_cons.mp h
    cases ts with
    | nil => exact ht
    | cons u us =>
      rw [toList_intercalate_cons_cons]
      intro c hc
      simp only [List.mem_append] at hc
      rcases hc with hc | hc | hc
      · exact ht c hc
      · exact hg c hc
      · exact ih hts c hc

end Text
end RegisterMachine
