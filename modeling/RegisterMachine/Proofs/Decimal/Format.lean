import RegisterMachine.Decimal.Format
import RegisterMachine.Proofs.Decimal.Shortest
import RegisterMachine.Proofs.Literal

/-!
# The text of a number reads back

Whatever the position of the point, the text of a decimal is a numeral of the same value, though not
always of the same decimal: zeros are added and dropped.  Since reading depends on the value alone,
the text of every number is read as that number, with its sign.
-/

namespace RegisterMachine
namespace Decimal

open Rounding Float.Model Float.Model.UnpackedFloat Literal

theorem exists_toDigits_eq (d : Decimal) :
    ∃ k, Nat.toDigits 10 d.coefficient = d.digits ++ List.replicate k '0' := by
  let zeros := (Nat.toDigits 10 d.coefficient).reverse.takeWhile (· == '0')
  have hzeros : zeros.reverse = List.replicate zeros.length '0' := by
    rw [List.eq_replicate_iff, List.length_reverse]
    refine ⟨rfl, fun c hc => ?_⟩
    simpa using List.all_eq_true.1 List.all_takeWhile c (List.mem_reverse.1 hc)
  refine ⟨zeros.length, ?_⟩
  rw [← hzeros, digits, ← List.reverse_append, List.takeWhile_append_dropWhile, List.reverse_reverse]

theorem isDigit_of_mem_digits (d : Decimal) : ∀ c ∈ d.digits, c.isDigit := by
  intro c hc
  obtain ⟨k, hk⟩ := exists_toDigits_eq d
  exact isDigit_of_mem_toDigits _ c (hk ▸ List.mem_append_left _ hc)

theorem digits_ne_nil {d : Decimal} (h : 0 < d.coefficient) : d.digits ≠ [] := by
  intro h0
  obtain ⟨k, hk⟩ := exists_toDigits_eq d
  have := Nat.ofDigitChars_ten_toDigits (n := d.coefficient)
  rw [hk, h0, List.nil_append, Nat.ofDigitChars_replicate_zero, Nat.mul_zero] at this
  omega

/-- The number that digits denote with a point after the first `point` of them. -/
def pointValue (ds : List Char) (point : ℤ) : ℚ :=
  Nat.ofDigitChars 10 ds 0 * 10 ^ (point - ds.length)

theorem pointValue_zeros_append (n : ℕ) (ds : List Char) (point : ℤ) :
    pointValue (List.replicate n '0' ++ ds) point = pointValue ds (point - n) := by
  rw [pointValue, pointValue, Nat.ofDigitChars_append, Nat.ofDigitChars_replicate_zero,
    Nat.mul_zero, List.length_append, List.length_replicate, Nat.cast_add, sub_sub]

@[simp] theorem pointValue_append_zeros (ds : List Char) (n : ℕ) (point : ℤ) :
    pointValue (ds ++ List.replicate n '0') point = pointValue ds point := by
  rw [pointValue, pointValue, Nat.ofDigitChars_append, Nat.ofDigitChars_replicate_zero,
    List.length_append, List.length_replicate, Nat.cast_add, add_comm (ds.length : ℤ), ← sub_sub,
    sub_right_comm, zpow_sub₀ (by norm_num) _ (n : ℤ), zpow_natCast]
  push_cast
  field_simp

theorem value_eq_pointValue (d : Decimal) : d.value = pointValue d.digits d.point := by
  obtain ⟨k, hk⟩ := exists_toDigits_eq d
  rw [← pointValue_append_zeros d.digits k, ← hk, pointValue, Nat.ofDigitChars_ten_toDigits, point,
    add_sub_cancel_left, value]

theorem value_plain (whole fraction : List Char) :
    value ⟨Nat.ofDigitChars 10 (whole ++ fraction) 0, -fraction.length⟩ =
      pointValue (whole ++ fraction) whole.length := by
  rw [value, pointValue, List.length_append, Nat.cast_add, sub_add_cancel_left]

theorem value_scaled (whole fraction : List Char) (e : ℤ) :
    value ⟨Nat.ofDigitChars 10 (whole ++ fraction) 0, e - fraction.length⟩ =
      pointValue (whole ++ fraction) (whole.length + e) := by
  rw [value, pointValue, List.length_append, Nat.cast_add, add_sub_add_left_eq_sub]

theorem isDigit_of_mem_zeros (n : ℕ) : ∀ c ∈ List.replicate n '0', c.isDigit := by
  intro c hc
  rw [List.eq_of_mem_replicate hc]
  rfl

section

variable {ds : List Char} (hne : ds ≠ []) (hd : ∀ c ∈ ds, c.isDigit)

include hne hd

/-- All digits stand behind the point. -/
theorem numeral_below (n : ℕ) :
    ∃ d, Numeral ("0.".toList ++ List.replicate n '0' ++ ds) d ∧ d.value = pointValue ds (-n) := by
  have hd' : ∀ c ∈ List.replicate (n + 1) '0' ++ ds, c.isDigit := fun c hc =>
    (List.mem_append.1 hc).elim (isDigit_of_mem_zeros _ c) (hd c)
  have h := Numeral.plain ['0'] (List.replicate n '0' ++ ds) (List.cons_ne_nil _ _) hd'
  rw [pointed, if_neg (List.append_ne_nil_of_right_ne_nil _ hne)] at h
  refine ⟨_, h, ?_⟩
  rw [value_plain]
  show pointValue (List.replicate (n + 1) '0' ++ ds) 1 = _
  rw [pointValue_zeros_append]
  congr 1
  omega

/-- All digits stand in front of the point. -/
theorem numeral_whole (n : ℕ) :
    ∃ d, Numeral (ds ++ List.replicate n '0' ++ ".0".toList) d ∧
      d.value = pointValue ds (ds.length + n) := by
  have happend : ds ++ List.replicate n '0' ++ ['0'] = ds ++ List.replicate (n + 1) '0' := by
    rw [List.append_assoc, List.replicate_succ']
  have hd' : ∀ c ∈ ds ++ List.replicate n '0' ++ ['0'], c.isDigit := by
    rw [happend]
    exact fun c hc => (List.mem_append.1 hc).elim (hd c) (isDigit_of_mem_zeros _ c)
  refine ⟨_, .plain (ds ++ List.replicate n '0') ['0'] (List.append_ne_nil_of_left_ne_nil hne _) hd',
    ?_⟩
  rw [value_plain, happend, pointValue_append_zeros, List.length_append, List.length_replicate,
    Nat.cast_add]

/-- The point stands among the digits. -/
theorem numeral_inside {k : ℕ} (h0 : 0 < k) (hk : k < ds.length) :
    ∃ d, Numeral (ds.take k ++ '.' :: ds.drop k) d ∧ d.value = pointValue ds k := by
  have htake : ds.take k ≠ [] := by
    rw [Ne, List.take_eq_nil_iff]
    exact not_or.2 ⟨h0.ne', hne⟩
  have hd' : ∀ c ∈ ds.take k ++ ds.drop k, c.isDigit := by rwa [List.take_append_drop]
  have h := Numeral.plain (ds.take k) (ds.drop k) htake hd'
  rw [pointed, if_neg (by rw [List.drop_eq_nil_iff]; omega)] at h
  refine ⟨_, h, ?_⟩
  rw [value_plain, List.take_append_drop, List.length_take, Nat.min_eq_left hk.le]

theorem numeral_positionalText (point : ℤ) :
    ∃ d, Numeral (positionalText general ds point) d ∧ d.value = pointValue ds point := by
  rw [positionalText]
  by_cases hp : point ≤ 0
  · obtain ⟨d, h, hv⟩ := numeral_below hne hd (-point).toNat
    rw [if_pos hp]
    refine ⟨d, h, hv.trans ?_⟩
    congr 1
    omega
  rw [if_neg hp]
  by_cases hlen : ds.length ≤ point
  · obtain ⟨d, h, hv⟩ := numeral_whole hne hd (point.toNat - ds.length)
    rw [if_pos hlen]
    refine ⟨d, h, hv.trans ?_⟩
    congr 1
    omega
  · obtain ⟨d, h, hv⟩ := numeral_inside hne hd (k := point.toNat) (by omega) (by omega)
    rw [if_neg hlen]
    refine ⟨d, h, hv.trans ?_⟩
    congr 1
    omega

theorem numeral_exponentText (point : ℤ) :
    ∃ d, Numeral (exponentText ds point) d ∧ d.value = pointValue ds point := by
  have hlen : (ds.take 1).length = 1 := by
    have := List.length_pos_of_ne_nil hne
    rw [List.length_take]
    omega
  refine ⟨_, .scaled (ds.take 1) (ds.drop 1) (List.ne_nil_of_length_pos (by omega)) ?_ (point - 1),
    ?_⟩
  · rwa [List.take_append_drop]
  · rw [value_scaled, List.take_append_drop, hlen, Nat.cast_one, add_sub_cancel]

end

theorem numeral_finiteText {x : Float} {m : ℕ} {e : ℤ} {hm : 0 < m}
    (hx : x.toModel.unpack = .finite .positive m e hm) :
    ∃ d, Numeral (finiteText general x) d ∧ d.toFloat = x := by
  have h0 : (x == 0) = false := by
    show x.toModel.unpack.beq (0 : Float).toModel.unpack = false
    rw [hx]
    rfl
  have hpos := coefficient_shortest_pos hx
  have hne := digits_ne_nil hpos
  have hd := isDigit_of_mem_digits (shortest x)
  obtain ⟨d, h, hv⟩ : ∃ d, Numeral (finiteText general x) d ∧ d.value = (shortest x).value := by
    rw [finiteText, h0, if_neg Bool.false_ne_true, value_eq_pointValue]
    show ∃ d, Numeral (if general.positional (shortest x).point then _ else _) d ∧ _
    split
    · exact numeral_positionalText hne hd _
    · exact numeral_exponentText hne hd _
  refine ⟨d, h, ?_⟩
  rw [← toFloat_congr hpos hv.symm, toFloat_shortest hx]

/-- The sign in front of the magnitude gives the number back. -/
theorem signed_abs {u : UnpackedFloat} (h : Held u) (hu : u.isNaN = false) :
    (if 2 ^ 63 ≤ code u then u.abs.neg else u.abs) = u := by
  cases u with
  | notANumber => cases hu
  | infinity s => cases s <;> rfl
  | zero s => cases s <;> rfl
  | finite s m e hm =>
    obtain ⟨-, hlt, hlow, hhigh, -⟩ := h
    cases s with
    | negative => exact if_pos (Nat.le_add_right _ _)
    | positive => exact if_neg (by simp only [code, signCode]; omega)

@[simp] theorem unpack_abs (x : Float) : x.abs.toModel.unpack = x.toModel.unpack.abs := by
  have hheld := held_model x.toModel
  show (Float.Model.pack x.toModel.unpack.abs).unpack = x.toModel.unpack.abs
  cases hu : x.toModel.unpack with
  | notANumber => rfl
  | infinity s =>
    show (Float.Model.pack (.infinity .positive)).unpack = .infinity .positive
    rfl
  | zero s =>
    show (Float.Model.pack (.zero .positive)).unpack = .zero .positive
    rfl
  | finite s m e hm =>
    rw [hu] at hheld
    exact unpack_pack hheld .positive

theorem eq_of_unpack_eq {x y : Float} (h : x.toModel.unpack = y.toModel.unpack) : x = y := by
  have hmodel : x.toModel = y.toModel := by rw [← pack_model x.toModel, h, pack_model]
  exact congrArg Float.ofModel hmodel

theorem neg_abs (x : Float) : -x.abs = .ofModel (.pack x.toModel.unpack.abs.neg) := by
  show Float.ofModel (.pack x.abs.toModel.unpack.neg) = _
  rw [unpack_abs]

theorem ofModel_pack_unpack (x : Float) : .ofModel (.pack x.toModel.unpack) = x :=
  congrArg Float.ofModel (pack_model x.toModel)

theorem isSigned_iff (x : Float) : isSigned x = true ↔ 2 ^ 63 ≤ code x.toModel.unpack := by
  rw [code_model]
  exact decide_eq_true_iff

theorem signed_eq {x : Float} (hx : x.isNaN = false) :
    (if isSigned x then -x.abs else x.abs) = x := by
  have hback := ofModel_pack_unpack x
  rw [← signed_abs (held_model x.toModel) hx] at hback
  by_cases hs : isSigned x = true
  · rw [if_pos ((isSigned_iff x).1 hs), ← neg_abs] at hback
    rw [if_pos hs, hback]
  · rw [if_neg (mt (isSigned_iff x).2 hs)] at hback
    rw [if_neg hs]
    exact hback

/-- The text of a magnitude has no sign and reads back. -/
theorem magnitude?_text {x : Float} (hx : x.isNaN = false) :
    let cs := if x.isInf then "inf".toList else finiteText general x.abs
    splitSign cs = (false, cs) ∧ magnitude? cs = some x.abs := by
  have habs := unpack_abs x
  have hinf : x.isInf = x.toModel.unpack.isInf := rfl
  have hnumeral {cs : List Char} : (∃ d, Numeral cs d ∧ d.toFloat = x.abs) →
      splitSign cs = (false, cs) ∧ magnitude? cs = some x.abs := by
    rintro ⟨d, h, hd⟩
    exact ⟨h.splitSign, hd ▸ h.magnitude?⟩
  cases hu : x.toModel.unpack with
  | notANumber =>
    rw [show x.isNaN = x.toModel.unpack.isNaN from rfl, hu] at hx
    cases hx
  | infinity s =>
    rw [hu] at habs hinf
    have heq : (1 / 0 : Float) = x.abs := eq_of_unpack_eq (Eq.trans rfl habs.symm)
    rw [hinf]
    exact ⟨rfl, congrArg some heq⟩
  | zero s =>
    rw [hu] at habs hinf
    have heq : (0 : Float) = x.abs := eq_of_unpack_eq (Eq.trans rfl habs.symm)
    rw [hinf]
    refine hnumeral ⟨⟨0, -1⟩, ?_, (toFloat_zero rfl).trans heq⟩
    rw [← heq]
    exact Numeral.plain ['0'] ['0'] (List.cons_ne_nil _ _) (isDigit_of_mem_zeros 2)
  | finite s m e hm =>
    rw [hu] at habs hinf
    rw [hinf]
    exact hnumeral (numeral_finiteText habs)

/-- Every number is read from its own text. -/
@[simp] theorem float?_text (x : Float) : float? (text general x).toList = some x := by
  by_cases hx : x.isNaN = true
  · have heq : (0 / 0 : Float) = x := eq_of_unpack_eq (isNaN_iff.1 hx).symm
    rw [text, signedText, if_pos hx]
    exact congrArg some heq
  · rw [Bool.not_eq_true] at hx
    obtain ⟨hs, hm⟩ := magnitude?_text hx
    have hsigned := signed_eq hx
    simp only [text, signedText, hx, if_neg Bool.false_ne_true, String.toList_ofList]
    split at hsigned
    · rename_i h
      rw [if_pos h]
      show (magnitude? _).map (fun x => -x) = some x
      rw [hm, Option.map_some, hsigned]
    · rename_i h
      rw [if_neg h, float?, hs]
      show magnitude? _ = some x
      rw [hm, hsigned]

end Decimal
end RegisterMachine
