import Mathlib.Data.Int.Bitwise
import Mathlib.Tactic.Positivity

/-!
# Words as integers

A register word of 64 bits stands for an integer from -2^63 on and below 2^63.  The arithmetic of
words is that of the integers followed by `wrap`; a shift multiplies or divides by a power of two,
whose exponent is the shift amount modulo 64, for negative amounts as well; and the bitwise
operations work on the unending two's complement of the integers, bit by bit.
-/

namespace RegisterMachine
namespace Word

/-- The integer in the range of a word that is congruent to `n` modulo 2^64. -/
def wrap (n : Int) : Int :=
  n.bmod (2 ^ 64)

@[simp] theorem wrap_add (m n : Int) : wrap (wrap m + n) = wrap (m + n) :=
  Int.bmod_add_bmod

@[simp] theorem wrap_sub (m n : Int) : wrap (wrap m - n) = wrap (m - n) :=
  Int.bmod_sub_bmod

@[simp] theorem wrap_mul (m n : Int) : wrap (wrap m * n) = wrap (m * n) :=
  Int.bmod_mul_bmod

@[simp] theorem toInt_lesser (a b : Int64) :
    (if b < a then b else a).toInt = min a.toInt b.toInt := by
  by_cases h : b < a
  · rw [if_pos h, Int.min_eq_right (Int.le_of_lt (Int64.lt_iff_toInt_lt.mp h))]
  · rw [if_neg h, Int.min_eq_left (Int.not_lt.mp (mt Int64.lt_iff_toInt_lt.mpr h))]

@[simp] theorem toInt_greater (a b : Int64) :
    (if a < b then b else a).toInt = max a.toInt b.toInt := by
  by_cases h : a < b
  · rw [if_pos h, Int.max_eq_right (Int.le_of_lt (Int64.lt_iff_toInt_lt.mp h))]
  · rw [if_neg h, Int.max_eq_left (Int.not_lt.mp (mt Int64.lt_iff_toInt_lt.mpr h))]

/-- The amount of a shift is taken modulo 64, with a result that is not negative. -/
theorem toNat_smod (b : Int64) : (b.toBitVec.smod 64).toNat = (b.toInt % 64).toNat := by
  have hmod : (b.toBitVec.smod 64).toInt = b.toInt % 64 := by
    rw [BitVec.toInt_smod]
    exact Int.fmod_eq_emod_of_nonneg _ (by decide)
  have hcond := BitVec.toInt_eq_toNat_cond (b.toBitVec.smod 64)
  have hlt := (b.toBitVec.smod 64).isLt
  split at hcond <;> omega

@[simp] theorem toInt_shiftLeft (a b : Int64) :
    (a <<< b).toInt = wrap (a.toInt * 2 ^ (b.toInt % 64).toNat) := by
  show (a.toBitVec <<< b.toBitVec.smod 64).toInt = _
  have ha : a.toInt = (a.toBitVec.toNat : Int).bmod (2 ^ 64) := a.toBitVec.toInt_eq_toNat_bmod
  rw [BitVec.shiftLeft_eq', BitVec.toInt_shiftLeft, toNat_smod, Nat.shiftLeft_eq, wrap, ha,
    Int.bmod_mul_bmod]
  push_cast
  rfl

@[simp] theorem toInt_shiftRight (a b : Int64) :
    (a >>> b).toInt = a.toInt.fdiv (2 ^ (b.toInt % 64).toNat) := by
  show (a.toBitVec.sshiftRight' (b.toBitVec.smod 64)).toInt = _
  rw [BitVec.toInt_sshiftRight', toNat_smod, Int.shiftRight_eq_div_pow,
    Int.fdiv_eq_ediv_of_nonneg _ (by positivity)]
  push_cast
  rfl

/-! ## Bits

`Int.testBit` reads an integer as an unending row of bits, so a word's sign is repeated beyond its
last bit. -/

theorem testBit_toInt (w : Int64) (i : Nat) :
    w.toInt.testBit i = w.toBitVec.getLsbD (min i 63) := by
  have hmsb : w.toBitVec.getLsbD 63 = w.toBitVec.msb := (BitVec.msb_eq_getLsbD_last _).symm
  have hw : w.toInt = if w.toBitVec.msb = true then (w.toBitVec.toNat : Int) - (2 ^ 64 : Nat)
      else w.toBitVec.toNat := w.toBitVec.toInt_eq_msb_cond
  cases hs : w.toBitVec.msb with
  | false =>
    have htest : w.toInt.testBit i = w.toBitVec.getLsbD i := by
      rw [hw, hs]
      rfl
    rw [htest]
    by_cases hi : i < 64
    · rw [show min i 63 = i by omega]
    · rw [show min i 63 = 63 by omega, hmsb, hs, BitVec.getLsbD_of_ge _ _ (by omega)]
  | true =>
    have hneg : w.toInt = Int.negSucc (~~~w.toBitVec).toNat := by
      have hlt := w.toBitVec.isLt
      rw [hw, hs, BitVec.toNat_not, if_pos rfl]
      omega
    have htest : w.toInt.testBit i = !(decide (i < 64) && !w.toBitVec.getLsbD i) := by
      rw [hneg, ← BitVec.getLsbD_not]
      rfl
    rw [htest]
    by_cases hi : i < 64
    · rw [show min i 63 = i by omega, decide_eq_true hi, Bool.true_and, Bool.not_not]
    · rw [show min i 63 = 63 by omega, hmsb, hs, decide_eq_false hi]
      rfl

theorem eq_of_testBit {v w : Int64} (h : ∀ i, v.toInt.testBit i = w.toInt.testBit i) : v = w := by
  refine Int64.toBitVec_inj.mp (BitVec.eq_of_getLsbD_eq fun i hi => ?_)
  have hbit := h i
  rw [testBit_toInt, testBit_toInt, show min i 63 = i by omega] at hbit
  exact hbit

@[simp] theorem testBit_and (a b : Int64) (i : Nat) :
    (a &&& b).toInt.testBit i = (a.toInt.testBit i && b.toInt.testBit i) := by
  rw [testBit_toInt, testBit_toInt, testBit_toInt, Int64.toBitVec_and, BitVec.getLsbD_and]

@[simp] theorem testBit_or (a b : Int64) (i : Nat) :
    (a ||| b).toInt.testBit i = (a.toInt.testBit i || b.toInt.testBit i) := by
  rw [testBit_toInt, testBit_toInt, testBit_toInt, Int64.toBitVec_or, BitVec.getLsbD_or]

@[simp] theorem testBit_xor (a b : Int64) (i : Nat) :
    (a ^^^ b).toInt.testBit i = (a.toInt.testBit i ^^ b.toInt.testBit i) := by
  rw [testBit_toInt, testBit_toInt, testBit_toInt, Int64.toBitVec_xor, BitVec.getLsbD_xor]

end Word
end RegisterMachine
