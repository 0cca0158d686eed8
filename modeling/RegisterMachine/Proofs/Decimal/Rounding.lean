import Mathlib.Algebra.Order.Field.Power
import Mathlib.Algebra.Order.Field.Rat
import Mathlib.Tactic.FieldSimp
import Mathlib.Tactic.GCongr
import Mathlib.Tactic.Linarith
import Mathlib.Tactic.NormNum
import Mathlib.Tactic.Positivity
import Mathlib.Tactic.Ring

/-!
# Rounding to a binary number

A positive rational is rounded from a mantissa, an exponent and what is known of the rest.  How it
is written in this way does not matter: the last place of the result is determined by the rational
(`LastPlace`), and so are the mantissa at that place and the two bits that say on which side of the
middle the rest lies (`Locates`).  So two ways to write one rational are rounded to one number.
-/

namespace RegisterMachine
namespace Rounding

open Float.Model Float.Model.UnpackedFloat

/-- The mantissa is the integer part of `q`, and the bits tell where the rest lies: the first whether
it reaches a half, the second whether it is neither nothing nor a half. -/
structure Locates (em : ExtendedMantissa) (q : ℚ) : Prop where
  mantissa_le : em.mantissa ≤ q
  lt_succ : q < em.mantissa + 1
  roundBit_iff : em.roundBit = true ↔ em.mantissa + 1 / 2 ≤ q
  stickyBit_iff : em.stickyBit = false ↔ q = em.mantissa ∨ q = em.mantissa + 1 / 2

namespace Locates

variable {em em' : ExtendedMantissa} {q : ℚ}

theorem unique (h : Locates em q) (h' : Locates em' q) : em = em' := by
  have hle : em.mantissa < em'.mantissa + 1 := by
    exact_mod_cast lt_of_le_of_lt h.mantissa_le h'.lt_succ
  have hge : em'.mantissa < em.mantissa + 1 := by
    exact_mod_cast lt_of_le_of_lt h'.mantissa_le h.lt_succ
  have hm : em.mantissa = em'.mantissa := by omega
  have hr : em.roundBit = em'.roundBit := by
    rw [Bool.eq_iff_iff, h.roundBit_iff, h'.roundBit_iff, hm]
  have hs : em.stickyBit = em'.stickyBit := by
    have hs : em.stickyBit = false ↔ em'.stickyBit = false := by
      rw [h.stickyBit_iff, h'.stickyBit_iff, hm]
    cases he : em.stickyBit <;> cases he' : em'.stickyBit <;> simp_all
  cases em
  cases em'
  simp_all

theorem of_rest {m : ℕ} {r s : Bool} {rest : ℚ} (h0 : 0 ≤ rest) (h1 : rest < 1)
    (hr : r = true ↔ 1 / 2 ≤ rest) (hs : s = false ↔ rest = 0 ∨ rest = 1 / 2) :
    Locates ⟨m, r, s⟩ (m + rest) where
  mantissa_le := le_add_of_nonneg_right h0
  lt_succ := (add_lt_add_iff_left _).2 h1
  roundBit_iff := hr.trans (add_le_add_iff_left _).symm
  stickyBit_iff := by rw [hs, add_eq_left, add_right_inj]

theorem exact (m : ℕ) : Locates (.ofMantissaAndAccuracy m .exact) m := by
  have h : Locates ⟨m, false, false⟩ (m + 0) :=
    of_rest le_rfl zero_lt_one (by norm_num) (by norm_num)
  rwa [add_zero] at h

/-- The rest is a fraction of the last place. -/
theorem fraction {num den : ℕ} (h : num < den) (m : ℕ) :
    Locates (.ofMantissaAndAccuracy m (accuracyOfFraction num den)) (m + num / den) := by
  have hden : (0 : ℚ) < den := by exact_mod_cast lt_of_le_of_lt (Nat.zero_le num) h
  have hle : (0 : ℚ) ≤ num / den := by positivity
  have hlt : (num : ℚ) / den < 1 := (div_lt_one hden).2 (by exact_mod_cast h)
  have hzero : (num : ℚ) / den = 0 ↔ num = 0 := by
    rw [div_eq_zero_iff, or_iff_left hden.ne', Nat.cast_eq_zero]
  have hhalf : (1 / 2 : ℚ) ≤ num / den ↔ den ≤ 2 * num := by
    rw [div_le_div_iff₀ two_pos hden, one_mul, mul_comm]
    exact_mod_cast Iff.rfl
  have heq : (num : ℚ) / den = 1 / 2 ↔ 2 * num = den := by
    rw [div_eq_div_iff hden.ne' two_ne_zero, one_mul, mul_comm]
    exact_mod_cast Iff.rfl
  by_cases h0 : num = 0
  · rw [show accuracyOfFraction num den = .exact from if_pos h0]
    refine of_rest hle hlt ?_ ?_ <;> rw [hzero.2 h0] <;> norm_num
  rw [show accuracyOfFraction num den = .inexact (compare (2 * num) den) from if_neg h0]
  rcases lt_trichotomy (2 * num) den with hc | hc | hc
  · rw [compare_lt_iff_lt.2 hc]
    refine of_rest hle hlt ?_ ?_ <;> simp only [hhalf, hzero, heq] <;> simp <;> omega
  · rw [compare_eq_iff_eq.2 hc]
    refine of_rest hle hlt ?_ ?_ <;> simp only [hhalf, hzero, heq] <;> simp <;> omega
  · rw [compare_gt_iff_gt.2 hc]
    refine of_rest hle hlt ?_ ?_ <;> simp only [hhalf, hzero, heq] <;> simp <;> omega

/-- Halving moves the last bit of the mantissa into the rest. -/
theorem shiftRightOne (h : Locates em q) : Locates em.shiftRightOne (q / 2) := by
  obtain ⟨m, r, s⟩ := em
  obtain ⟨hle, hlt, hr, hs⟩ := h
  simp only at hle hlt hr hs
  have hexact : (r || s) = false ↔ q = m := by
    rw [Bool.or_eq_false_iff, hs, ← Bool.not_eq_true, hr]
    constructor
    · rintro ⟨hlow, h | h⟩
      · exact h
      · linarith
    · rintro rfl
      norm_num
  have hm : (m : ℚ) = 2 * (m / 2 : ℕ) + (m % 2 : ℕ) := by exact_mod_cast (Nat.div_add_mod m 2).symm
  simp only [ExtendedMantissa.shiftRightOne]
  rcases Nat.mod_two_eq_zero_or_one m with hb | hb
  · rw [hb, Nat.cast_zero, add_zero] at hm
    refine ⟨by linarith, by linarith, ?_, ?_⟩
    · simp only [hb]
      constructor
      · simp
      · intro h
        linarith
    · rw [hexact]
      constructor
      · intro h
        left
        linarith
      · rintro (h | h) <;> linarith
  · rw [hb, Nat.cast_one] at hm
    refine ⟨by linarith, by linarith, ?_, ?_⟩
    · simp only [hb]
      constructor
      · intro
        linarith
      · simp
    · rw [hexact]
      constructor
      · intro h
        right
        linarith
      · rintro (h | h) <;> linarith

theorem shiftRight (h : Locates em q) (n : ℕ) : Locates (em >>> n) (q / 2 ^ n) := by
  induction n with
  | zero =>
    rw [pow_zero, div_one]
    exact h
  | succ n ih =>
    rw [pow_succ, ← div_div]
    exact ih.shiftRightOne

end Locates

/-- At the place of `e` nothing is lost that the format could keep: the place is not above the
smallest one, or `x` has fifty-three bits there. -/
def Fine (x : ℚ) (e : ℤ) : Prop :=
  e ≤ -1074 ∨ 2 ^ (e + 52) ≤ x

/-- The place of the last bit that the format keeps of `x`. -/
structure LastPlace (x : ℚ) (t : ℤ) : Prop where
  fine : Fine x t
  least_le : -1074 ≤ t
  lt : x < 2 ^ (t + 53)

namespace LastPlace

variable {x : ℚ} {t t' e : ℤ}

theorem le_of_fine (h : LastPlace x t) (he : Fine x e) : e ≤ t := by
  rcases he with he | he
  · exact he.trans h.least_le
  · have : e + 52 < t + 53 := (zpow_lt_zpow_iff_right₀ one_lt_two).1 (lt_of_le_of_lt he h.lt)
    omega

theorem unique (h : LastPlace x t) (h' : LastPlace x t') : t = t' :=
  le_antisymm (h'.le_of_fine h.fine) (h.le_of_fine h'.fine)

end LastPlace

/-- The exponent to which a mantissa is shifted before it is rounded. -/
theorem targetExponent_eq (m : ℕ) (e : ℤ) :
    Format.binary64.targetExponent (totalExponent m e) = max (m.log2 + e - 52) (-1074) := by
  show max ((m.log2 : ℤ) + 1 + e - 53) (-1074) = _
  omega

@[simp] theorem mantissa_ofMantissaAndAccuracy (m : ℕ) (acc : Accuracy) :
    (ExtendedMantissa.ofMantissaAndAccuracy m acc).mantissa = m := by
  rcases acc with _ | _ | _ | _ <;> rfl

section

variable {x : ℚ} {m : ℕ} {e : ℤ} {acc : Accuracy}

theorem zpow_log2_le (hm : m ≠ 0) (e : ℤ) : (2 : ℚ) ^ (m.log2 + e) ≤ m * 2 ^ e := by
  rw [zpow_add₀ two_ne_zero, zpow_natCast]
  gcongr
  exact_mod_cast Nat.log2_self_le hm

theorem succ_mul_zpow_le (m : ℕ) (e : ℤ) : (m + 1 : ℚ) * 2 ^ e ≤ 2 ^ (m.log2 + 1 + e) := by
  rw [zpow_add₀ two_ne_zero]
  gcongr
  exact_mod_cast Nat.lt_log2_self

theorem lastPlace_targetExponent
    (h : Locates (.ofMantissaAndAccuracy m acc) (x / 2 ^ e)) (he : Fine x e) :
    LastPlace x (Format.binary64.targetExponent (totalExponent m e)) := by
  have h2 : (0 : ℚ) < 2 ^ e := by positivity
  have hle := h.mantissa_le
  have hlt := h.lt_succ
  rw [mantissa_ofMantissaAndAccuracy, le_div_iff₀ h2] at hle
  rw [mantissa_ofMantissaAndAccuracy, div_lt_iff₀ h2] at hlt
  have hhigh := hlt.trans_le (succ_mul_zpow_le m e)
  rw [targetExponent_eq]
  -- A mantissa of zero has no leading bit, and then only the smallest place is fine enough.
  by_cases hm : m = 0
  · rw [hm, Nat.log2_zero]
    rw [hm, Nat.cast_zero, zero_add, one_mul] at hlt
    have he : e ≤ -1074 := he.resolve_right fun hx => by
      have : e + 52 < e := (zpow_lt_zpow_iff_right₀ one_lt_two).1 (lt_of_le_of_lt hx hlt)
      omega
    rw [max_eq_right (by push_cast; omega)]
    refine ⟨.inl le_rfl, le_rfl, hlt.trans_le ?_⟩
    exact zpow_le_zpow_right₀ one_le_two (by omega)
  · have hlow := (zpow_log2_le hm e).trans hle
    refine ⟨?_, le_max_right .., hhigh.trans_le (zpow_le_zpow_right₀ one_le_two (by omega))⟩
    rcases le_total ((m.log2 : ℤ) + e - 52) (-1074) with hc | hc
    · rw [max_eq_right hc]
      exact .inl le_rfl
    · rw [max_eq_left hc]
      exact .inr (by rwa [sub_add_cancel])

theorem locates_exact (m : ℕ) (e : ℤ) :
    Locates (.ofMantissaAndAccuracy m .exact) (m * 2 ^ e / 2 ^ e) := by
  rw [mul_div_cancel_right₀ _ (by positivity)]
  exact .exact m

theorem fine_of_full (h : 2 ^ 52 ≤ m) (e : ℤ) : Fine (m * 2 ^ e) e := by
  right
  rw [zpow_add₀ two_ne_zero, mul_comm]
  gcongr
  exact_mod_cast h

theorem shiftToTargetExponent_locates
    (h : Locates (.ofMantissaAndAccuracy m acc) (x / 2 ^ e)) (he : Fine x e) :
    ∃ em t, shiftToTargetExponent .binary64 m e acc = (em, t) ∧
      LastPlace x t ∧ Locates em (x / 2 ^ t) := by
  have ht := lastPlace_targetExponent h he
  rw [shiftToTargetExponent, shiftToExponent]
  generalize Format.binary64.targetExponent (totalExponent m e) = t at ht
  have hn : e + (t - e).toNat = t := by
    have := ht.le_of_fine he
    omega
  refine ⟨_, t, Prod.ext rfl hn, ht, ?_⟩
  have hx : x / 2 ^ t = x / 2 ^ e / 2 ^ (t - e).toNat := by
    rw [div_div, ← zpow_natCast, ← zpow_add₀ two_ne_zero, hn]
  rw [hx]
  exact h.shiftRight _

/-- Above the smallest place the mantissa has all its bits. -/
theorem Locates.full {em : ExtendedMantissa} {t : ℤ} (h : Locates em (x / 2 ^ t))
    (ht : LastPlace x t) (hlow : -1074 < t) : 2 ^ 52 ≤ em.mantissa := by
  have hx : 2 ^ (t + 52) ≤ x := ht.fine.resolve_left (by omega)
  have hq : (2 : ℚ) ^ 52 ≤ x / 2 ^ t := by
    rw [le_div_iff₀ (by positivity), ← zpow_natCast, ← zpow_add₀ two_ne_zero, add_comm]
    exact hx
  have : 2 ^ 52 < em.mantissa + 1 := by exact_mod_cast hq.trans_lt h.lt_succ
  omega

end

theorem mantissa_le_roundedMantissa (em : ExtendedMantissa) : em.mantissa ≤ em.roundedMantissa := by
  obtain ⟨m, r, s⟩ := em
  cases r <;> cases s <;> simp [ExtendedMantissa.roundedMantissa, ExtendedMantissa.accuracy,
    Accuracy.roundToNearestEven]

theorem roundWithAccuracy_eq {m : ℕ} {e t t' : ℤ} {acc : Accuracy} {em em' : ExtendedMantissa}
    (h : shiftToTargetExponent .binary64 m e acc = (em, t))
    (h' : shiftToTargetExponent .binary64 em.roundedMantissa t .exact = (em', t')) (s : Sign) :
    roundWithAccuracy .binary64 s m e acc =
      if h0 : em'.mantissa = 0 then .zero s
      else .finite s em'.mantissa t' (Nat.pos_of_ne_zero h0) := by
  unfold roundWithAccuracy
  rw [h]
  dsimp only
  rw [h']

/-- The result of rounding the positive rational `x`. -/
def Rounds (x : ℚ) (f : UnpackedFloat) : Prop :=
  ∃ m e acc, Locates (.ofMantissaAndAccuracy m acc) (x / 2 ^ e) ∧ Fine x e ∧
    roundWithAccuracy .binary64 .positive m e acc = f

namespace Rounds

variable {x : ℚ} {f f' : UnpackedFloat}

/-- However a rational is written, it is rounded to the same number. -/
theorem unique (h : Rounds x f) (h' : Rounds x f') : f = f' := by
  obtain ⟨m, e, acc, h, he, rfl⟩ := h
  obtain ⟨m', e', acc', h', he', rfl⟩ := h'
  obtain ⟨em, t, heq, ht, hem⟩ := shiftToTargetExponent_locates h he
  obtain ⟨em', t', heq', ht', hem'⟩ := shiftToTargetExponent_locates h' he'
  obtain rfl := ht.unique ht'
  obtain rfl := hem.unique hem'
  unfold roundWithAccuracy
  rw [heq, heq']

theorem mul {m₁ m₂ : ℕ} {e₁ e₂ : ℤ} (h₁ : 0 < m₁) (h₂ : 0 < m₂)
    (he : Fine (m₁ * 2 ^ e₁ * (m₂ * 2 ^ e₂)) (e₁ + e₂)) :
    Rounds (m₁ * 2 ^ e₁ * (m₂ * 2 ^ e₂))
      (.mul .binary64 (.finite .positive m₁ e₁ h₁) (.finite .positive m₂ e₂ h₂)) := by
  refine ⟨m₁ * m₂, e₁ + e₂, .exact, ?_, he, rfl⟩
  have hx : (m₁ * 2 ^ e₁ * (m₂ * 2 ^ e₂) : ℚ) / 2 ^ (e₁ + e₂) = (m₁ * m₂ : ℕ) := by
    rw [zpow_add₀ two_ne_zero, Nat.cast_mul]
    field_simp
  rw [hx]
  exact .exact _

theorem div {m₁ m₂ : ℕ} {e₁ e₂ : ℤ} (h₁ : 0 < m₁) (h₂ : 0 < m₂) :
    Rounds (m₁ * 2 ^ e₁ / (m₂ * 2 ^ e₂))
      (.div .binary64 (.finite .positive m₁ e₁ h₁) (.finite .positive m₂ e₂ h₂)) := by
  let t := min (e₁ - e₂)
    (Format.binary64.targetExponent (totalExponent m₁ e₁ - totalExponent m₂ e₂))
  let m := m₁ <<< (e₁ - e₂ - t).toNat
  refine ⟨m / m₂, t, accuracyOfFraction (m % m₂) m₂, ?_, ?_, rfl⟩
  · have hm : (m : ℚ) = m₁ * 2 ^ (e₁ - e₂ - t) := by
      have hn : (((e₁ - e₂ - t).toNat : ℕ) : ℤ) = e₁ - e₂ - t := by omega
      show ((m₁ <<< _ : ℕ) : ℚ) = _
      rw [Nat.shiftLeft_eq, Nat.cast_mul, Nat.cast_pow, ← zpow_natCast, hn]
      norm_cast
    have hq : (m₁ * 2 ^ e₁ / (m₂ * 2 ^ e₂) : ℚ) / 2 ^ t = (m / m₂ : ℕ) + (m % m₂ : ℕ) / m₂ := by
      have hdiv : (m : ℚ) = m₂ * (m / m₂ : ℕ) + (m % m₂ : ℕ) := by
        exact_mod_cast (Nat.div_add_mod m m₂).symm
      have hne : (m₂ : ℚ) ≠ 0 := by exact_mod_cast h₂.ne'
      calc (m₁ * 2 ^ e₁ / (m₂ * 2 ^ e₂) : ℚ) / 2 ^ t = m / m₂ := by
            rw [hm, zpow_sub₀ two_ne_zero, zpow_sub₀ two_ne_zero]
            field_simp
        _ = _ := by
            rw [hdiv, add_div, mul_div_cancel_left₀ _ hne]
    rw [hq]
    exact .fraction (Nat.mod_lt _ h₂) _
  · by_cases ht : t ≤ -1074
    · exact .inl ht
    right
    have hte : t + 52 + (m₂.log2 + 1 + e₂) ≤ m₁.log2 + e₁ := by
      have : t ≤ max ((m₁.log2 + 1 + e₁) - (m₂.log2 + 1 + e₂) - 53) (-1074) := min_le_right ..
      omega
    rw [le_div_iff₀ (by positivity)]
    calc (2 : ℚ) ^ (t + 52) * (m₂ * 2 ^ e₂)
        ≤ 2 ^ (t + 52) * 2 ^ (m₂.log2 + 1 + e₂) := by
          gcongr
          exact le_trans (by gcongr; linarith) (succ_mul_zpow_le m₂ e₂)
      _ = 2 ^ (t + 52 + (m₂.log2 + 1 + e₂)) := (zpow_add₀ two_ne_zero ..).symm
      _ ≤ 2 ^ (m₁.log2 + e₁) := zpow_le_zpow_right₀ one_le_two hte
      _ ≤ m₁ * 2 ^ e₁ := zpow_log2_le h₁.ne' e₁

/-- What reaches `2 ^ 1024` has a place beyond those of the format. -/
theorem of_large (hx : 2 ^ 1024 ≤ x) (h : Rounds x f) :
    ∃ m e hm, f = .finite .positive m e hm ∧ 972 ≤ e := by
  obtain ⟨m, e, acc, h, he, rfl⟩ := h
  obtain ⟨em, t, heq, ht, hem⟩ := shiftToTargetExponent_locates h he
  have ht972 : 972 ≤ t := by
    have : (2 : ℚ) ^ (1024 : ℤ) < 2 ^ (t + 53) := lt_of_le_of_lt hx ht.lt
    have := (zpow_lt_zpow_iff_right₀ one_lt_two).1 this
    omega
  have hfull : 2 ^ 52 ≤ em.roundedMantissa :=
    (hem.full ht (by omega)).trans (mantissa_le_roundedMantissa em)
  obtain ⟨em', t', heq', ht', hem'⟩ :=
    shiftToTargetExponent_locates (locates_exact em.roundedMantissa t) (fine_of_full hfull t)
  have htt' := ht'.le_of_fine (fine_of_full hfull t)
  have hfull' := hem'.full ht' (by omega)
  rw [roundWithAccuracy_eq heq heq', dif_neg (by omega)]
  exact ⟨_, _, _, rfl, by omega⟩

/-- What stays below half of the smallest positive number becomes zero. -/
theorem of_small (hx : x < 2 ^ (-1075 : ℤ)) (h : Rounds x f) : f = .zero .positive := by
  obtain ⟨m, e, acc, h, he, rfl⟩ := h
  obtain ⟨em, t, heq, ht, hem⟩ := shiftToTargetExponent_locates h he
  have ht1074 : t = -1074 := by
    refine le_antisymm (not_lt.1 fun hlt => ?_) ht.least_le
    have hx' : 2 ^ (t + 52) ≤ x := ht.fine.resolve_left (by omega)
    have := (zpow_lt_zpow_iff_right₀ one_lt_two).1 (hx'.trans_lt hx)
    omega
  have hhalf : x / 2 ^ t < 1 / 2 := by
    rw [ht1074, div_lt_iff₀ (by positivity)]
    refine hx.trans_eq ?_
    rw [show (-1075 : ℤ) = -1074 - 1 from rfl, zpow_sub_one₀ two_ne_zero]
    ring
  have hm : em.mantissa = 0 := by
    have : (em.mantissa : ℚ) < 1 := hem.mantissa_le.trans_lt (hhalf.trans (by norm_num))
    exact Nat.lt_one_iff.1 (by exact_mod_cast this)
  have hr : em.roundBit = false := by
    rw [← Bool.not_eq_true, hem.roundBit_iff, hm, Nat.cast_zero, zero_add]
    exact hhalf.not_ge
  have h0 : em.roundedMantissa = 0 := by
    obtain ⟨_, _, s⟩ := em
    subst hm hr
    cases s <;> rfl
  obtain ⟨em', t', heq', -, hem'⟩ :=
    shiftToTargetExponent_locates (locates_exact em.roundedMantissa t) (.inl ht1074.le)
  have hm' : em'.mantissa = 0 := by
    have := hem'.mantissa_le
    rw [h0, Nat.cast_zero, zero_mul, zero_div] at this
    exact_mod_cast this.antisymm (Nat.cast_nonneg _)
  rw [roundWithAccuracy_eq heq heq', dif_pos hm']

end Rounds

/-- A mantissa and an exponent that the format can hold as they are. -/
structure Canonical (m : ℕ) (e : ℤ) : Prop where
  pos : 0 < m
  lt : m < 2 ^ 53
  least_le : -1074 ≤ e
  le_greatest : e ≤ 971
  full : e = -1074 ∨ 2 ^ 52 ≤ m

namespace Canonical

variable {m : ℕ} {e : ℤ}

theorem fine (h : Canonical m e) : Fine (m * 2 ^ e) e :=
  h.full.elim (fun h => .inl h.le) fun h => fine_of_full h e

theorem log2_le (h : Canonical m e) : m.log2 ≤ 52 :=
  Nat.le_of_lt_succ ((Nat.log2_lt h.pos.ne').2 h.lt)

theorem log2_eq_iff (h : Canonical m e) : m.log2 = 52 ↔ 2 ^ 52 ≤ m := by
  rw [← Nat.le_log2 h.pos.ne']
  exact ⟨fun he => he.ge, h.log2_le.antisymm⟩

theorem shiftToTargetExponent_eq (h : Canonical m e) :
    shiftToTargetExponent .binary64 m e .exact = (⟨m, false, false⟩, e) := by
  have ht : max ((m.log2 : ℤ) + e - 52) (-1074) = e := by
    have := h.log2_le
    have := h.log2_eq_iff
    have := h.full
    have := h.least_le
    omega
  rw [shiftToTargetExponent, shiftToExponent, targetExponent_eq, ht, sub_self]
  simp only [Int.toNat_zero, Nat.cast_zero, add_zero]
  rfl

/-- A number that the format can hold is not changed. -/
theorem roundWithAccuracy_exact (h : Canonical m e) (s : Sign) :
    roundWithAccuracy .binary64 s m e .exact = .finite s m e h.pos := by
  rw [roundWithAccuracy_eq h.shiftToTargetExponent_eq h.shiftToTargetExponent_eq,
    dif_neg h.pos.ne']

theorem rounds (h : Canonical m e) : Rounds (m * 2 ^ e) (.finite .positive m e h.pos) :=
  ⟨m, e, .exact, locates_exact m e, h.fine, h.roundWithAccuracy_exact .positive⟩

/-- A mantissa that is too short is filled up with zeros. -/
theorem of_lt {n : ℕ} (h0 : 0 < n) (h : n < 2 ^ 53) (he : -1022 ≤ e) (he' : e ≤ 971) :
    Canonical (n <<< (52 - n.log2)) (e - (52 - n.log2 : ℕ)) ∧ 2 ^ 52 ≤ n <<< (52 - n.log2) := by
  have hlog : n.log2 ≤ 52 := Nat.lt_succ_iff.1 ((Nat.log2_lt h0.ne').2 h)
  have hfull : 2 ^ 52 ≤ n <<< (52 - n.log2) := by
    rw [Nat.shiftLeft_eq]
    calc 2 ^ 52 = 2 ^ n.log2 * 2 ^ (52 - n.log2) := by rw [← pow_add, Nat.add_sub_cancel' hlog]
      _ ≤ n * 2 ^ (52 - n.log2) := Nat.mul_le_mul_right _ (Nat.log2_self_le h0.ne')
  have hlt : n <<< (52 - n.log2) < 2 ^ 53 := by
    rw [Nat.shiftLeft_eq]
    calc n * 2 ^ (52 - n.log2) < 2 ^ (n.log2 + 1) * 2 ^ (52 - n.log2) :=
          Nat.mul_lt_mul_of_pos_right Nat.lt_log2_self (Nat.two_pow_pos _)
      _ = 2 ^ 53 := by rw [← pow_add]; congr 1; omega
  exact ⟨⟨by omega, hlt, by omega, by omega, .inr hfull⟩, hfull⟩

end Canonical

end Rounding
end RegisterMachine
