import Mathlib
import RegisterMachine.Proofs.Decimal.Rounding

/-!
# The bits of a binary number

Packing writes a number that the format can hold as its `code` (`toNat_pack`), and bits are always
unpacked to such a number (`held_unpack`).  So nothing is lost in either direction.

The library's lemmas on packed numbers come with the whole of Mathlib and with no smaller part.
-/

namespace RegisterMachine
namespace Rounding

open Float.Model Float.Model.UnpackedFloat

def signCode : Sign → ℕ
  | .positive => 0
  | .negative => 0x8000000000000000

/-- The bits as a natural: the exponent, counted from the smallest, is added above the mantissa. -/
def code : UnpackedFloat → ℕ
  | .infinity s => signCode s + 2047 * 2 ^ 52
  | .notANumber => 2047 * 2 ^ 52 + 2 ^ 51
  | .zero s => signCode s
  | .finite s m e _ => signCode s + ((e + 1074).toNat * 2 ^ 52 + m)

def Held : UnpackedFloat → Prop
  | .finite _ m e _ => Canonical m e
  | _ => True

theorem toNat_toBitVec (s : Sign) : s.toBitVec.toNat * 2 ^ 63 = signCode s := by
  cases s <;> rfl

theorem toNat_packComponents (s : Sign) (e : BitVec 11) (m : BitVec 52) :
    (packComponents .binary64 s e m).toNat = signCode s + (e.toNat * 2 ^ 52 + m.toNat) := by
  show ((s.toBitVec ++ e ++ m : BitVec (1 + 11 + 52))).toNat = _
  rw [BitVec.toNat_append, BitVec.toNat_append, ← Nat.shiftLeft_add_eq_or_of_lt m.isLt,
    ← Nat.shiftLeft_add_eq_or_of_lt e.isLt, Nat.shiftLeft_eq, Nat.shiftLeft_eq, ← toNat_toBitVec]
  omega

theorem toNat_unpackMantissa (b : BitVec 64) :
    (@unpackMantissa .binary64 b).toNat = b.toNat % 2 ^ 52 := by
  simp [unpackMantissa]

theorem toNat_unpackExponent (b : BitVec 64) :
    (@unpackExponent .binary64 b).toNat = b.toNat / 2 ^ 52 % 2 ^ 11 := by
  simp [unpackExponent, Nat.shiftRight_eq_div_pow]

theorem toNat_pack {f : UnpackedFloat} (h : Held f) : (pack .binary64 f).toNat = code f := by
  cases f with
  | notANumber => rfl
  | infinity s => exact toNat_packComponents s (-1) 0
  | zero s => exact toNat_packComponents s 0 0
  | finite s m e hm =>
    have hlog : m.log2 + 1 = 53 ↔ 2 ^ 52 ≤ m := Nat.succ_inj.trans (Canonical.log2_eq_iff h)
    obtain ⟨-, hlt, hlow, hhigh, hfull⟩ := h
    show (if 2 ^ 11 ≤ (e + 1023 + 52).toNat + 1 then packedInfinity .binary64 s
      else if m.log2 + 1 = 53 then
        packComponents .binary64 s (BitVec.ofNat 11 (e + 1023 + 52).toNat) (BitVec.ofNat 52 m)
      else packComponents .binary64 s 0#11 (BitVec.ofNat 52 m)).toNat = _
    rw [if_neg (by omega)]
    by_cases hm52 : 2 ^ 52 ≤ m
    · rw [if_pos (hlog.2 hm52), toNat_packComponents, BitVec.toNat_ofNat, BitVec.toNat_ofNat, code]
      omega
    · rw [if_neg (mt hlog.1 hm52), toNat_packComponents, BitVec.toNat_ofNat, BitVec.toNat_ofNat, code]
      omega

theorem held_unpack (b : BitVec 64) : Held (.unpack .binary64 b) := by
  have hE := toNat_unpackExponent b
  have hM := toNat_unpackMantissa b
  have hbias : ((Format.binary64.exponentBias : ℤ) + (52 : ℕ)) = 1075 := rfl
  have hinf : @unpackExponent .binary64 b = -1#11 ↔ b.toNat / 2 ^ 52 % 2 ^ 11 = 2047 := by
    rw [← hE, ← BitVec.toNat_inj]
    rfl
  have hzero : @unpackExponent .binary64 b = 0#11 ↔ b.toNat / 2 ^ 52 % 2 ^ 11 = 0 := by
    rw [← hE, ← BitVec.toNat_inj]
    rfl
  have hnone : @unpackMantissa .binary64 b = 0#52 ↔ b.toNat % 2 ^ 52 = 0 := by
    rw [← hM, ← BitVec.toNat_inj]
    rfl
  simp only [UnpackedFloat.unpack]
  split_ifs with h h0 hz h0
  · trivial
  · trivial
  · trivial
  · rw [hzero] at hz
    rw [hnone] at h0
    rw [Held, hE, hM, hz, hbias, show ((0 : ℕ) : ℤ) - 1075 + 1 = -1074 from rfl]
    exact ⟨by omega, by omega, by omega, by omega, .inl rfl⟩
  · rw [hinf] at h
    rw [hzero] at hz
    have hone : (1#1 ++ @unpackMantissa .binary64 b).toNat = 2 ^ 52 + b.toNat % 2 ^ 52 := by
      rw [BitVec.toNat_append, hM, ← Nat.shiftLeft_add_eq_or_of_lt (Nat.mod_lt _ (by decide))]
      rfl
    rw [Held, hE, hbias, hone]
    exact ⟨by omega, by omega, by omega, by omega, .inr (by omega)⟩

theorem held_model (f : Float.Model) : Held f.unpack :=
  held_unpack f.toBits.toBitVec

@[simp] theorem code_model (f : Float.Model) : code f.unpack = f.toBits.toNat := by
  rw [← toNat_pack (held_model f)]
  exact congrArg BitVec.toNat (pack_unpack_of_valid f.valid)

@[simp] theorem pack_model (f : Float.Model) : Float.Model.pack f.unpack = f := by
  have hbits : UnpackedFloat.pack .binary64 f.unpack = f.toBits.toBitVec :=
    pack_unpack_of_valid f.valid
  obtain ⟨bits, hv⟩ := f
  simp only [Float.Model.pack, hbits]

theorem unpack_pack {m : ℕ} {e : ℤ} (h : Canonical m e) (s : Sign) :
    (Float.Model.pack (.finite s m e h.pos)).unpack = .finite s m e h.pos := by
  have hheld := held_model (.pack (.finite s m e h.pos))
  have hcode := (code_model (.pack (.finite s m e h.pos))).trans (toNat_pack h)
  generalize (Float.Model.pack (.finite s m e h.pos)).unpack = g at hheld hcode
  obtain ⟨hpos, hlt, hlow, hhigh, hfull⟩ := h
  -- The codes of the other kinds lie outside those of the finite numbers of either sign.
  cases g with
  | infinity s' => cases s <;> cases s' <;> simp only [code, signCode] at hcode <;> omega
  | notANumber => cases s <;> simp only [code, signCode] at hcode <;> omega
  | zero s' => cases s <;> cases s' <;> simp only [code, signCode] at hcode <;> omega
  | finite s' m' e' hm' =>
    obtain ⟨_, _, _, _, _⟩ := hheld
    obtain ⟨rfl, rfl, rfl⟩ : s' = s ∧ m' = m ∧ e' = e := by
      cases s <;> cases s' <;> simp only [code, signCode] at hcode <;> simp <;> omega
    rfl

/-- Beyond the greatest place a number becomes infinite. -/
theorem pack_large {m : ℕ} {e : ℤ} (s : Sign) (hm : 0 < m) (he : 972 ≤ e) :
    Float.Model.pack (.finite s m e hm) = .pack (.infinity s) := by
  have hbits : UnpackedFloat.pack .binary64 (.finite s m e hm) = packedInfinity .binary64 s :=
    if_pos (show 2 ^ 11 ≤ (e + 1023 + 52).toNat + 1 by omega)
  simp only [Float.Model.pack, hbits]
  rfl

end Rounding
end RegisterMachine
