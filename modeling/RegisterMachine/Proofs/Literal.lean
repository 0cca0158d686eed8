import RegisterMachine.Literal

/-!
# Literals that were written

The text of an integer is read as that integer, over the whole range of a word.  Digits with an
optional point among them and an optional exponent denote a decimal.  Whatever denotes a word is
made of letters, digits, signs and points (`spelled_of_word?`).
-/

namespace RegisterMachine
namespace Literal

variable {cs : List Char}

theorem digits?_eq (hne : cs ≠ []) (hd : ∀ c ∈ cs, c.isDigit) :
    digits? cs = some (Nat.ofDigitChars 10 cs 0) :=
  if_pos ⟨hne, List.all_eq_true.2 hd⟩

theorem isDigit_of_mem_toDigits (n : Nat) : ∀ c ∈ Nat.toDigits 10 n, c.isDigit := fun _ hc =>
  Nat.isDigit_of_mem_toDigits (by decide) (by decide) hc

@[simp] theorem digits?_toDigits (n : Nat) : digits? (Nat.toDigits 10 n) = some n := by
  rw [digits?_eq Nat.toDigits_ne_nil (isDigit_of_mem_toDigits n), Nat.ofDigitChars_ten_toDigits]

/-- A digit is no sign. -/
theorem splitSign_of_isDigit {c : Char} (hc : c.isDigit) (cs : List Char) :
    splitSign (c :: cs) = (false, c :: cs) := by
  refine splitSign.eq_3 _ ?_ ?_
  · rintro _ ⟨rfl, -⟩
    cases hc
  · rintro _ ⟨rfl, -⟩
    cases hc

@[simp] theorem splitSign_toDigits (n : Nat) :
    splitSign (Nat.toDigits 10 n) = (false, Nat.toDigits 10 n) := by
  obtain ⟨c, cs, h⟩ := List.exists_cons_of_ne_nil (Nat.toDigits_ne_nil (n := n) (b := 10))
  have hc := isDigit_of_mem_toDigits n c (h ▸ List.mem_cons_self)
  rw [h, splitSign_of_isDigit hc]

theorem integer?_of_splitSign {ds : List Char} {b : Bool} {n : Nat} (hs : splitSign cs = (b, ds))
    (hn : digits? ds = some n) : integer? cs = some (if b then -(n : Int) else n) := by
  rw [integer?, hs]
  cases b <;> simp only [hn] <;> rfl

theorem integer?_toString (i : Int) : integer? (toString i).toList = some i := by
  rw [Int.toString_eq_repr, Int.repr_eq_if]
  by_cases hi : 0 ≤ i
  · rw [if_pos hi, Nat.toList_repr,
      integer?_of_splitSign (splitSign_toDigits _) (digits?_toDigits _), if_neg Bool.false_ne_true,
      Int.toNat_of_nonneg hi]
  · have hs : splitSign ("-" ++ (-i).toNat.repr).toList = (true, Nat.toDigits 10 (-i).toNat) := by
      rw [String.toList_append, Nat.toList_repr]
      rfl
    rw [if_neg hi, integer?_of_splitSign hs (digits?_toDigits _), if_pos rfl,
      Int.toNat_of_nonneg (by omega), Int.neg_neg]

/-- Every word is read from its own text. -/
theorem int?_toString (w : Int64) : int? (toString w.toInt).toList = some w := by
  rw [int?, integer?_toString]
  show (if Int64.minValue.toInt ≤ w.toInt ∧ w.toInt ≤ Int64.maxValue.toInt then
    some (Int64.ofInt w.toInt) else none) = some w
  rw [if_pos ⟨Int64.minValue_le_toInt w, Int64.toInt_le w⟩, Int64.ofInt_toInt]

def pointed (fraction : List Char) : List Char :=
  if fraction = [] then [] else '.' :: fraction

theorem ne_of_isDigit {c d : Char} (hc : c.isDigit) (hd : d.isDigit = false) : c ≠ d := by
  rintro rfl
  rw [hc] at hd
  cases hd

/-- Digits with a point among them and then nothing or an exponent. -/
theorem decimal?_eq {whole fraction tail : List Char} {e : Int} (hne : whole ++ fraction ≠ [])
    (hd : ∀ c ∈ whole ++ fraction, c.isDigit)
    (htail : tail = [] ∧ e = 0 ∨ ∃ cs, tail = 'e' :: cs ∧ integer? cs = some e) :
    decimal? (whole ++ pointed fraction ++ tail) =
      some ⟨Nat.ofDigitChars 10 (whole ++ fraction) 0, e - fraction.length⟩ := by
  have hmantissa : (whole ++ pointed fraction ++ tail).takeWhile (fun c => !(c == 'e' || c == 'E')) =
      whole ++ pointed fraction := by
    have hmark {c : Char} (hc : c.isDigit) : (!(c == 'e' || c == 'E')) = true := by
      simp [ne_of_isDigit hc (d := 'e') rfl, ne_of_isDigit hc (d := 'E') rfl]
    have hall : ∀ c ∈ whole ++ pointed fraction, (!(c == 'e' || c == 'E')) = true := by
      intro c hc
      rcases List.mem_append.1 hc with hc | hc
      · exact hmark (hd c (List.mem_append_left _ hc))
      · rw [pointed] at hc
        split at hc
        · cases hc
        · rcases List.mem_cons.1 hc with rfl | hc
          · rfl
          · exact hmark (hd c (List.mem_append_right _ hc))
    rw [List.takeWhile_append_of_pos hall]
    obtain ⟨rfl, -⟩ | ⟨cs, rfl, -⟩ := htail <;> simp
  have hwhole : (whole ++ pointed fraction).takeWhile (· != '.') = whole := by
    have hpoint : ∀ c ∈ whole, (c != '.') = true := fun c hc => by
      simpa using ne_of_isDigit (hd c (List.mem_append_left _ hc)) (d := '.') rfl
    rw [List.takeWhile_append_of_pos hpoint, pointed]
    split <;> simp
  have hfraction : (whole ++ pointed fraction).drop (whole.length + 1) = fraction := by
    rw [List.drop_append, pointed]
    split <;> simp_all
  simp only [decimal?, hmantissa, hwhole, hfraction, digits?_eq hne hd, List.drop_left]
  obtain ⟨rfl, rfl⟩ | ⟨cs, rfl, hcs⟩ := htail
  · rfl
  · simp only [hcs]
    rfl

theorem toLower_of_not_isUpper {c : Char} (hc : c.isUpper = false) : c.toLower = c :=
  dif_neg (of_decide_eq_false hc)

/-- What begins with a digit is none of the words. -/
theorem magnitude?_of_isDigit {c : Char} (hc : c.isDigit) (cs : List Char) :
    magnitude? (c :: cs) = (decimal? (c :: cs)).map Decimal.toFloat := by
  have hlower : c.toLower = c := by
    refine toLower_of_not_isUpper (decide_eq_false fun h => ?_)
    have hle := (Char.isDigit_iff_toNat.1 hc).2
    have hge : 'A'.toNat ≤ c.toNat := h.1
    exact absurd (Nat.le_trans hge hle) (by decide)
  have hi : c ≠ 'i' := ne_of_isDigit hc rfl
  have hn : c ≠ 'n' := ne_of_isDigit hc rfl
  rw [magnitude?, List.map_cons, hlower, if_neg, if_neg]
  · intro h
    exact hn (List.cons.inj h).1
  · rintro (h | h)
    · exact hi (List.cons.inj h).1
    · exact hi (List.cons.inj h).1

/-- The ways in which decimals are written, with the decimal that is meant.  There is a digit in
front of the point. -/
inductive Numeral : List Char → Decimal → Prop
  | plain (whole fraction : List Char) (hne : whole ≠ []) (hd : ∀ c ∈ whole ++ fraction, c.isDigit) :
    Numeral (whole ++ pointed fraction)
      ⟨Nat.ofDigitChars 10 (whole ++ fraction) 0, -fraction.length⟩
  | scaled (whole fraction : List Char) (hne : whole ≠ []) (hd : ∀ c ∈ whole ++ fraction, c.isDigit)
      (e : Int) :
    Numeral (whole ++ pointed fraction ++ 'e' :: (toString e).toList)
      ⟨Nat.ofDigitChars 10 (whole ++ fraction) 0, e - fraction.length⟩

namespace Numeral

variable {d : Decimal}

theorem decimal? (h : Numeral cs d) : decimal? cs = some d := by
  cases h with
  | plain whole fraction hne hd =>
    have := decimal?_eq (List.append_ne_nil_of_left_ne_nil hne _) hd (.inl ⟨rfl, rfl⟩)
    rwa [List.append_nil, Int.zero_sub] at this
  | scaled whole fraction hne hd e =>
    exact decimal?_eq (List.append_ne_nil_of_left_ne_nil hne _) hd
      (.inr ⟨_, rfl, integer?_toString e⟩)

theorem exists_digit (h : Numeral cs d) : ∃ c ds, cs = c :: ds ∧ c.isDigit := by
  cases h with
  | plain whole fraction hne hd =>
    obtain ⟨c, ds, rfl⟩ := List.exists_cons_of_ne_nil hne
    exact ⟨c, _, rfl, hd c List.mem_cons_self⟩
  | scaled whole fraction hne hd e =>
    obtain ⟨c, ds, rfl⟩ := List.exists_cons_of_ne_nil hne
    exact ⟨c, _, rfl, hd c List.mem_cons_self⟩

theorem magnitude? (h : Numeral cs d) : magnitude? cs = some d.toFloat := by
  have hd := h.decimal?
  obtain ⟨c, ds, rfl, hc⟩ := h.exists_digit
  rw [magnitude?_of_isDigit hc, hd, Option.map_some]

theorem splitSign (h : Numeral cs d) : splitSign cs = (false, cs) := by
  obtain ⟨c, ds, rfl, hc⟩ := h.exists_digit
  exact splitSign_of_isDigit hc ds

end Numeral

def isLetter (c : Char) : Bool :=
  c.isAlphanum || c == '+' || c == '-' || c == '.'

def Spelled (cs : List Char) : Prop :=
  cs ≠ [] ∧ ∀ c ∈ cs, isLetter c

theorem isLetter_of_isDigit {c : Char} (hc : c.isDigit) : isLetter c := by
  simp [isLetter, Char.isAlphanum, hc]

theorem splitSign_cases (cs : List Char) :
    ∃ b ds, splitSign cs = (b, ds) ∧ (cs = ds ∨ cs = '-' :: ds ∨ cs = '+' :: ds) := by
  fun_cases splitSign cs with
  | case1 ds => exact ⟨true, ds, rfl, .inr (.inl rfl)⟩
  | case2 ds => exact ⟨false, ds, rfl, .inr (.inr rfl)⟩
  | case3 => exact ⟨false, cs, rfl, .inl rfl⟩

theorem spelled_of_digits? {n : Nat} (h : digits? cs = some n) : Spelled cs := by
  rw [digits?] at h
  split at h
  · rename_i hc
    exact ⟨hc.1, fun c hmem => isLetter_of_isDigit (List.all_eq_true.1 hc.2 c hmem)⟩
  · cases h

/-- A sign changes nothing. -/
theorem Spelled.signed {ds : List Char} (hds : Spelled ds)
    (h : cs = ds ∨ cs = '-' :: ds ∨ cs = '+' :: ds) : Spelled cs := by
  obtain rfl | rfl | rfl := h
  · exact hds
  · exact ⟨List.cons_ne_nil _ _, List.forall_mem_cons.2 ⟨rfl, hds.2⟩⟩
  · exact ⟨List.cons_ne_nil _ _, List.forall_mem_cons.2 ⟨rfl, hds.2⟩⟩

theorem spelled_of_integer? {i : Int} (h : integer? cs = some i) : Spelled cs := by
  obtain ⟨b, ds, hs, hcs⟩ := splitSign_cases cs
  rw [integer?, hs] at h
  cases hn : digits? ds with
  | none => cases b <;> simp [hn] at h
  | some n => exact (spelled_of_digits? hn).signed hcs

theorem takeWhile_cases (p : Char → Bool) (cs : List Char) :
    cs.takeWhile p = cs ∨ ∃ c ds, cs = cs.takeWhile p ++ c :: ds ∧ p c = false := by
  induction cs with
  | nil => exact .inl rfl
  | cons c cs ih =>
    by_cases hc : p c = true
    · rw [List.takeWhile_cons_of_pos hc]
      obtain h | ⟨d, ds, h, hd⟩ := ih
      · exact .inl (congrArg _ h)
      · exact .inr ⟨d, ds, congrArg _ h, hd⟩
    · rw [List.takeWhile_cons_of_neg hc]
      exact .inr ⟨c, cs, rfl, Bool.eq_false_iff.2 hc⟩

theorem spelled_of_decimal? {d : Decimal} (h : decimal? cs = some d) : Spelled cs := by
  simp only [decimal?] at h
  generalize hm : cs.takeWhile (fun c => !(c == 'e' || c == 'E')) = mantissa at h
  generalize hw : mantissa.takeWhile (· != '.') = whole at h
  obtain ⟨n, hn, h⟩ := Option.bind_eq_some_iff.1 h
  have hmantissa : Spelled mantissa := by
    obtain ⟨hne, hd⟩ := spelled_of_digits? hn
    obtain hall | ⟨c, fraction, hcs, hc⟩ := takeWhile_cases (· != '.') mantissa
    · rw [hw] at hall
      rw [hall, List.drop_of_length_le (Nat.le_succ _), List.append_nil] at hne hd
      exact ⟨hne, hd⟩
    · rw [hw] at hcs
      obtain rfl : c = '.' := by simpa using hc
      rw [hcs, List.drop_append, List.drop_of_length_le (Nat.le_succ _), List.nil_append,
        Nat.add_sub_cancel_left, List.drop_one, List.tail_cons] at hd
      rw [hcs]
      refine ⟨by simp, fun c hmem => ?_⟩
      rw [List.mem_append, List.mem_cons] at hmem
      obtain hmem | rfl | hmem := hmem
      · exact hd c (List.mem_append_left _ hmem)
      · rfl
      · exact hd c (List.mem_append_right _ hmem)
  obtain hall | ⟨c, e, hcs, hc⟩ := takeWhile_cases (fun c => !(c == 'e' || c == 'E')) cs
  · rwa [← hall, hm]
  · rw [hm] at hcs
    have hdrop : cs.drop mantissa.length = c :: e := by rw [hcs, List.drop_left]
    simp only [hdrop] at h
    obtain ⟨i, hi, -⟩ := Option.bind_eq_some_iff.1 h
    have hmark : isLetter c := by
      have : c = 'e' ∨ c = 'E' := Decidable.or_iff_not_imp_left.2 (by simpa using hc)
      obtain rfl | rfl := this <;> rfl
    refine ⟨by simp [hcs], fun a ha => ?_⟩
    rw [hcs, List.mem_append, List.mem_cons] at ha
    obtain ha | rfl | ha := ha
    · exact hmantissa.2 a ha
    · exact hmark
    · exact (spelled_of_integer? hi).2 a ha

/-- The words are written in either case. -/
theorem spelled_of_word {word : List Char} (h : cs.map Char.toLower = word) (hne : word ≠ [])
    (hword : ∀ c ∈ word, c.isAlpha) : Spelled cs := by
  refine ⟨fun h0 => hne (by rw [← h, h0]; rfl), fun c hc => ?_⟩
  have halpha := hword c.toLower (h ▸ List.mem_map_of_mem hc)
  cases hu : c.isUpper with
  | true =>
    have halpha : c.isAlpha = true := by
      show (c.isUpper || c.isLower) = true
      rw [hu, Bool.true_or]
    simp [isLetter, Char.isAlphanum, halpha]
  | false =>
    rw [toLower_of_not_isUpper hu] at halpha
    simp [isLetter, Char.isAlphanum, halpha]

theorem spelled_of_magnitude? {x : Float} (h : magnitude? cs = some x) : Spelled cs := by
  simp only [magnitude?] at h
  split at h
  · rename_i hw
    obtain hw | hw := hw
    · exact spelled_of_word hw (by decide) (List.all_eq_true.1 rfl)
    · exact spelled_of_word hw (by decide) (List.all_eq_true.1 rfl)
  · split at h
    · rename_i hw
      exact spelled_of_word hw (by decide) (List.all_eq_true.1 rfl)
    · obtain ⟨d, hd, -⟩ := Option.map_eq_some_iff.1 h
      exact spelled_of_decimal? hd

theorem spelled_of_float? {x : Float} (h : float? cs = some x) : Spelled cs := by
  obtain ⟨b, ds, hs, hcs⟩ := splitSign_cases cs
  rw [float?, hs] at h
  cases hn : magnitude? ds with
  | none => cases b <;> simp [hn] at h
  | some n => exact (spelled_of_magnitude? hn).signed hcs

/-- What denotes a word is made of letters, digits, signs and points. -/
theorem spelled_of_word? {k : Kind} {token : String} {w : k.Word} (h : word? k token = some w) :
    Spelled token.toList := by
  cases k with
  | int =>
    rw [word?, int?] at h
    obtain ⟨i, hi, -⟩ := Option.bind_eq_some_iff.1 h
    exact spelled_of_integer? hi
  | float => exact spelled_of_float? h

end Literal
end RegisterMachine
