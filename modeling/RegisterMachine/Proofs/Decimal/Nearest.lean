import RegisterMachine.Decimal.Basic
import RegisterMachine.Proofs.Decimal.Encoding

/-!
# Decimals that denote one number are read as one number

Reading multiplies or divides small decimals in floating point, computes with naturals otherwise,
and forms no power of ten where the result is certainly zero or infinite.  Each of these ways rounds
the rational that the decimal denotes (`toFloat_rounds`).
-/

namespace RegisterMachine

open Float.Model Float.Model.UnpackedFloat

namespace Rounding

/-- The float is the rational `q`, with all bits of the mantissa. -/
def Exactly (x : Float) (q : ℚ) : Prop :=
  ∃ (m : ℕ) (e : ℤ) (hm : 0 < m), x.toModel.unpack = .finite .positive m e hm ∧ 2 ^ 52 ≤ m ∧
    q = m * 2 ^ e

namespace Exactly

variable {x y : Float} {p q : ℚ}

theorem mul (hx : Exactly x p) (hy : Exactly y q) :
    ∃ f, Rounds (p * q) f ∧ x * y = .ofModel (.pack f) := by
  obtain ⟨m, e, hm, hx, hfull, rfl⟩ := hx
  obtain ⟨m', e', hm', hy, -, rfl⟩ := hy
  refine ⟨_, .mul hm hm' ?_, ?_⟩
  · have hfull' : 2 ^ 52 ≤ m * m' := hfull.trans (Nat.le_mul_of_pos_right m hm')
    have hx := fine_of_full hfull' (e + e')
    rwa [Nat.cast_mul, zpow_add₀ two_ne_zero, mul_mul_mul_comm] at hx
  · show Float.ofModel (.pack (.mul .binary64 x.toModel.unpack y.toModel.unpack)) = _
    rw [hx, hy]

theorem div (hx : Exactly x p) (hy : Exactly y q) :
    ∃ f, Rounds (p / q) f ∧ x / y = .ofModel (.pack f) := by
  obtain ⟨m, e, hm, hx, -, rfl⟩ := hx
  obtain ⟨m', e', hm', hy, -, rfl⟩ := hy
  refine ⟨_, .div hm hm', ?_⟩
  show Float.ofModel (.pack (.div .binary64 x.toModel.unpack y.toModel.unpack)) = _
  rw [hx, hy]

end Exactly

theorem exactly_pack {m : ℕ} {e : ℤ} (h : Canonical m e) (hfull : 2 ^ 52 ≤ m) :
    Exactly (.ofModel (.pack (.finite .positive m e h.pos))) (m * 2 ^ e) :=
  ⟨m, e, h.pos, unpack_pack h .positive, hfull, rfl⟩

theorem shiftLeft_mul_zpow (n k : ℕ) (e : ℤ) : ((n <<< k : ℕ) : ℚ) * 2 ^ (e - k) = n * 2 ^ e := by
  rw [Nat.shiftLeft_eq, Nat.cast_mul, Nat.cast_pow, Nat.cast_ofNat, mul_assoc, ← zpow_natCast,
    ← zpow_add₀ two_ne_zero, add_sub_cancel]

/-- A natural of at most fifty-three bits is converted without loss. -/
theorem exactly_toFloat {n : ℕ} (h0 : 0 < n) (h : n < 2 ^ 53) : Exactly n.toUInt64.toFloat n := by
  obtain ⟨hc, hfull⟩ := Canonical.of_lt (e := 0) h0 h (by decide) (by decide)
  have hn : n.toUInt64.toNat = n := Nat.mod_eq_of_lt (h.trans (by decide))
  have hlog : n.log2 < 53 := (Nat.log2_lt h0.ne').2 h
  have hround : UnpackedFloat.ofUInt64 .binary64 n.toUInt64 = .finite .positive
      (n <<< (52 - n.log2)) (0 - (52 - n.log2 : ℕ)) hc.pos := by
    show UnpackedFloat.normalize .binary64 (n.toUInt64.toNat : ℤ) 0 .positive = _
    have hcmp : compare (n : ℤ) 0 = .gt := compare_gt_iff_gt.2 (by omega)
    have ht : (0 - max ((n.log2 : ℤ) + 0 - 52) (-1074)).toNat = 52 - n.log2 := by omega
    rw [hn, UnpackedFloat.normalize, hcmp]
    show UnpackedFloat.round .binary64 .positive n 0 = _
    rw [UnpackedFloat.round, targetExponent_eq, decreaseExponent, ht]
    exact hc.roundWithAccuracy_exact .positive
  have hpack := exactly_pack hc hfull
  rw [shiftLeft_mul_zpow, zpow_zero, mul_one] at hpack
  show Exactly (.ofModel (.pack (.ofUInt64 .binary64 n.toUInt64))) n
  rwa [hround]

theorem powersOfTen_eq {n : ℕ} (h : n < Float.exactlyRepresentablePowersOfTen.size)
    (hm : 0 < 5 ^ n <<< (52 - (5 ^ n).log2)) :
    Float.exactlyRepresentablePowersOfTen[n] = .ofModel (.pack (.finite .positive
      (5 ^ n <<< (52 - (5 ^ n).log2)) (n - (52 - (5 ^ n).log2 : ℕ)) hm)) := by
  revert n
  decide +kernel

theorem exactly_powersOfTen {n : ℕ} (h : n < Float.exactlyRepresentablePowersOfTen.size) :
    Exactly Float.exactlyRepresentablePowersOfTen[n] (10 ^ n) := by
  have hn : n ≤ 22 := Nat.le_of_lt_succ h
  have h5 : 5 ^ n < 2 ^ 53 := lt_of_le_of_lt (Nat.pow_le_pow_right (by decide) hn) (by decide)
  obtain ⟨hc, hfull⟩ :=
    Canonical.of_lt (e := n) (Nat.pow_pos (by decide)) h5 (by omega) (by omega)
  have hpack := exactly_pack hc hfull
  have hvalue : ((5 ^ n : ℕ) : ℚ) * 2 ^ (n : ℤ) = 10 ^ n := by
    rw [zpow_natCast, Nat.cast_pow, ← mul_pow]
    norm_num
  rwa [shiftLeft_mul_zpow, hvalue, ← powersOfTen_eq h] at hpack

theorem rounds_product {m : ℕ} (hm : 0 < m) (hs : 0 < m <<< 53) (n : ℕ) :
    Rounds (m * 10 ^ n) (.mul .binary64 (.finite .positive (m <<< 53) (-53) hs)
      (.finite .positive (10 ^ n) 0 (Nat.pow_pos (by decide)))) := by
  have hvalue : ((m <<< 53 : ℕ) : ℚ) * 2 ^ (-53 : ℤ) * ((10 ^ n : ℕ) * 2 ^ (0 : ℤ)) = m * 10 ^ n := by
    have := shiftLeft_mul_zpow m 53 0
    rw [zpow_zero, mul_one] at this
    rw [zpow_zero, mul_one, Nat.cast_pow, Nat.cast_ofNat, ← this]
    rfl
  rw [← hvalue]
  refine .mul hs _ (.inr ?_)
  rw [hvalue]
  have hone : (1 : ℚ) ≤ (m * 10 ^ n : ℕ) := by exact_mod_cast Nat.mul_pos hm (by positivity)
  calc (2 : ℚ) ^ (-53 + 0 + 52 : ℤ) ≤ 1 := zpow_le_one_of_nonpos₀ one_le_two (by decide)
    _ ≤ m * 10 ^ n := by exact_mod_cast hone

theorem rounds_quotient {m : ℕ} (hm : 0 < m) (n : ℕ) :
    Rounds (m / 10 ^ n) (.div .binary64 (.finite .positive m 0 hm)
      (.finite .positive (10 ^ n) 0 (Nat.pow_pos (by decide)))) := by
  have hvalue : (m : ℚ) * 2 ^ (0 : ℤ) / ((10 ^ n : ℕ) * 2 ^ (0 : ℤ)) = m / 10 ^ n := by
    rw [zpow_zero, mul_one, mul_one, Nat.cast_pow, Nat.cast_ofNat]
  rw [← hvalue]
  exact .div hm _

/-- No power of ten is formed for an exponent beyond this. -/
theorem two_pow_exponentBits : (2 : ℤ) ^ Format.binary64.exponentBits = 2048 :=
  rfl

theorem ofScientific_natCast {m : ℕ} (hm : 0 < m) (n : ℕ) :
    ∃ f, Rounds (m * 10 ^ n) f ∧ Float.Model.ofScientific m n = .pack f := by
  have hs : 0 < m <<< 53 := by
    rw [Nat.shiftLeft_eq]
    positivity
  refine ⟨_, rounds_product hm hs n, ?_⟩
  rw [Float.Model.ofScientific, UnpackedFloat.ofScientific, dif_neg hm.ne', two_pow_exponentBits]
  by_cases hn : (n : ℤ) > 2048
  · have hlarge : (2 : ℚ) ^ 1024 ≤ m * 10 ^ n :=
      calc (2 : ℚ) ^ 1024 ≤ 10 ^ 1024 := pow_le_pow_left₀ (by norm_num) (by norm_num) _
        _ ≤ 10 ^ n := pow_le_pow_right₀ (by norm_num) (by omega)
        _ ≤ m * 10 ^ n := le_mul_of_one_le_left (by positivity) (by exact_mod_cast hm)
    obtain ⟨m', e', hm', hf, he'⟩ := (rounds_product hm hs n).of_large hlarge
    rw [if_pos hn, hf, pack_large _ _ he']
  · rw [if_neg hn, if_neg (by omega), if_pos (by omega)]
    rfl

theorem ofScientific_neg {m : ℕ} (hm : 0 < m) {n : ℕ} (hn : 0 < n) :
    ∃ f, Rounds (m / 10 ^ n) f ∧ Float.Model.ofScientific m (-n) = .pack f := by
  refine ⟨_, rounds_quotient hm n, ?_⟩
  rw [Float.Model.ofScientific, UnpackedFloat.ofScientific, dif_neg hm.ne', two_pow_exponentBits,
    if_neg (by omega)]
  by_cases hlow : (-n : ℤ) < -(2048 + m.log2)
  · have hsmall : (m : ℚ) / 10 ^ n < 2 ^ (-1075 : ℤ) := by
      rw [div_lt_iff₀ (by positivity)]
      calc (m : ℚ) < (m + 1) * 2 ^ (0 : ℤ) := by rw [zpow_zero]; linarith
        _ ≤ 2 ^ (m.log2 + 1 + 0 : ℤ) := succ_mul_zpow_le m 0
        _ ≤ 2 ^ (-1075 + n : ℤ) := zpow_le_zpow_right₀ one_le_two (by omega)
        _ = 2 ^ (-1075 : ℤ) * 2 ^ n := by rw [zpow_add₀ two_ne_zero, zpow_natCast]
        _ ≤ 2 ^ (-1075 : ℤ) * 10 ^ n := by gcongr; norm_num
    rw [if_pos hlow, (rounds_quotient hm n).of_small hsmall]
  · rw [if_neg hlow, if_neg (by omega)]
    simp only [neg_neg, Int.toNat_natCast]

end Rounding

namespace Decimal

open Rounding

def value (d : Decimal) : ℚ :=
  d.coefficient * 10 ^ d.exponent

theorem value_pos_iff {d : Decimal} : 0 < d.value ↔ 0 < d.coefficient := by
  rw [value, mul_pos_iff_of_pos_right (by positivity), Nat.cast_pos]

theorem ofScientific_false {m : ℕ} (hm : 0 < m) (n : ℕ) :
    ∃ f, Rounds (m * 10 ^ n) f ∧ Float.ofScientific m false n = .ofModel (.pack f) := by
  rw [Float.ofScientific]
  split
  · rename_i h
    exact (exactly_toFloat hm h.1).mul (exactly_powersOfTen (Nat.lt_succ_of_le h.2))
  · obtain ⟨f, hf, heq⟩ := ofScientific_natCast hm n
    exact ⟨f, hf, congrArg _ heq⟩

theorem ofScientific_true {m : ℕ} (hm : 0 < m) {n : ℕ} (hn : 0 < n) :
    ∃ f, Rounds (m / 10 ^ n) f ∧ Float.ofScientific m true n = .ofModel (.pack f) := by
  rw [Float.ofScientific]
  split
  · rename_i h
    exact (exactly_toFloat hm h.1).div (exactly_powersOfTen (Nat.lt_succ_of_le h.2))
  · obtain ⟨f, hf, heq⟩ := ofScientific_neg hm hn
    refine ⟨f, hf, congrArg _ ?_⟩
    rw [← heq, if_pos rfl, Int.negOfNat_eq]
    rfl

theorem toFloat_rounds {d : Decimal} (h : 0 < d.coefficient) :
    ∃ f, Rounds d.value f ∧ d.toFloat = .ofModel (.pack f) := by
  obtain ⟨m, e⟩ := d
  rw [value, toFloat]
  rcases le_or_gt 0 e with he | he
  · rw [decide_eq_false he.not_gt]
    lift e to ℕ using he
    exact ofScientific_false h e
  · rw [decide_eq_true he]
    obtain ⟨n, rfl⟩ := Int.exists_eq_neg_ofNat he.le
    rw [zpow_neg, zpow_natCast, ← div_eq_mul_inv, Int.natAbs_neg]
    exact ofScientific_true h (by omega)

/-- Reading depends on nothing but the number that the decimal denotes. -/
theorem toFloat_congr {d d' : Decimal} (h : 0 < d.coefficient) (hv : d.value = d'.value) :
    d.toFloat = d'.toFloat := by
  have h' : 0 < d'.coefficient := value_pos_iff.1 (hv ▸ value_pos_iff.2 h)
  obtain ⟨f, hf, hd⟩ := toFloat_rounds h
  obtain ⟨f', hf', hd'⟩ := toFloat_rounds h'
  rw [hd, hd', hf.unique (hv ▸ hf')]

end Decimal
end RegisterMachine
