import RegisterMachine.Decimal.Shortest
import RegisterMachine.Proofs.Decimal.Nearest

/-!
# The shortest decimal reads back

A decimal that the search finds reads back because the search tests it.  Where it finds none, the
exact value of the number is written as a decimal, and a number that the format can hold is read
without change.
-/

namespace RegisterMachine
namespace Decimal

open Rounding Float.Model Float.Model.UnpackedFloat

section

variable {x : Float} {s : Sign} {m : ℕ} {e : ℤ} {hm : 0 < m}

theorem canonical_of_unpack (hx : x.toModel.unpack = .finite s m e hm) : Canonical m e := by
  have h := held_model x.toModel
  rwa [hx] at h

theorem toBits_of_unpack (hx : x.toModel.unpack = .finite s m e hm) :
    x.toBits.toNat = signCode s + ((e + 1074).toNat * 2 ^ 52 + m) := by
  have h := code_model x.toModel
  rw [hx] at h
  exact h.symm

theorem exactRatio_eq (hx : x.toModel.unpack = .finite s m e hm) :
    exactRatio x = ⟨m * 2 ^ e.toNat, 2 ^ (-e).toNat⟩ := by
  have hbits := toBits_of_unpack hx
  obtain ⟨-, hlt, hlow, hhigh, hfull⟩ := canonical_of_unpack hx
  have hsign : signCode s = 0 ∨ signCode s = 2048 * 2 ^ 52 := by
    cases s
    · exact .inr rfl
    · exact .inl rfl
  rw [exactRatio, show hiddenBit = 2 ^ 52 from rfl]
  by_cases hm52 : 2 ^ 52 ≤ m
  · have hexponent : x.toBits.toNat / 2 ^ 52 % 2048 = (e + 1075).toNat := by omega
    have hfraction : 2 ^ 52 + x.toBits.toNat % 2 ^ 52 = m := by omega
    have hup : (e + 1075).toNat - 1075 = e.toNat := by omega
    have hdown : 1075 - (e + 1075).toNat = (-e).toNat := by omega
    simp only [hexponent, hfraction, hup, hdown]
    rw [if_neg (by omega)]
    rfl
  · have hexponent : x.toBits.toNat / 2 ^ 52 % 2048 = 0 := by omega
    have hfraction : x.toBits.toNat % 2 ^ 52 = m := by omega
    have hup : e.toNat = 0 := by omega
    have hdown : (-e).toNat = 1074 := by omega
    rw [hexponent, hfraction, if_pos rfl, hup, ← hdown, pow_zero, mul_one, Nat.pow_eq]

/-- The exact value of a number is read as that number. -/
theorem toFloat_of_value {d : Decimal} (hx : x.toModel.unpack = .finite .positive m e hm)
    (hd : d.value = m * 2 ^ e) : d.toFloat = x := by
  have hc := canonical_of_unpack hx
  have hpos : 0 < d.coefficient := by
    rw [← value_pos_iff, hd]
    positivity
  obtain ⟨f, hf, heq⟩ := toFloat_rounds hpos
  rw [heq, hf.unique (hd ▸ hc.rounds), ← hx, pack_model]

end

theorem onGrid?_toFloat {x : Float} {r : Ratio} {e : Int} {d : Decimal}
    (h : onGrid? x r e = some d) : d.toFloat = x := by
  simp only [onGrid?] at h
  split at h
  · rename_i hl
    cases h
    exact hl.1
  · split at h
    · rename_i hu
      cases h
      exact hu
    · cases h

theorem toFloat_shortest {x : Float} {m : ℕ} {e : ℤ} {hm : 0 < m}
    (hx : x.toModel.unpack = .finite .positive m e hm) : (shortest x).toFloat = x := by
  simp only [shortest]
  generalize List.map _ (List.range 17) = grids
  cases hg : grids.findSome? (onGrid? x (exactRatio x)) with
  | some d =>
    obtain ⟨e, -, he⟩ := List.exists_of_findSome?_eq_some hg
    exact onGrid?_toFloat he
  | none =>
    refine toFloat_of_value hx ?_
    rw [Option.getD_none, exactRatio_eq hx, value, Nat.log2_two_pow]
    generalize hk : (-e).toNat = k
    have he : (2 : ℚ) ^ e = 2 ^ e.toNat / 2 ^ k := by
      rw [← zpow_natCast, ← zpow_natCast, ← zpow_sub₀ two_ne_zero]
      congr 1
      omega
    rw [zpow_neg, zpow_natCast, he, show (10 : ℚ) = 2 * 5 by norm_num, mul_pow]
    show ((m * 2 ^ e.toNat * 5 ^ k : ℕ) : ℚ) * _ = _
    push_cast
    field_simp

theorem toFloat_zero {d : Decimal} (h : d.coefficient = 0) : d.toFloat = 0 := by
  have hfast : ∀ (s : Bool) (n : ℕ) (_ : n < Float.exactlyRepresentablePowersOfTen.size),
      (if s then (0 : ℕ).toUInt64.toFloat / Float.exactlyRepresentablePowersOfTen[n]
        else (0 : ℕ).toUInt64.toFloat * Float.exactlyRepresentablePowersOfTen[n]) = 0 := by
    decide +kernel
  rw [toFloat, h, Float.ofScientific]
  split
  · rename_i hn
    exact hfast _ _ (Nat.lt_succ_of_le hn.2)
  · rfl

theorem coefficient_shortest_pos {x : Float} {m : ℕ} {e : ℤ} {hm : 0 < m}
    (hx : x.toModel.unpack = .finite .positive m e hm) : 0 < (shortest x).coefficient := by
  refine Nat.pos_of_ne_zero fun h0 => ?_
  rw [← toFloat_shortest hx, toFloat_zero h0] at hx
  exact UnpackedFloat.noConfusion (show UnpackedFloat.zero .positive = _ from hx)

end Decimal
end RegisterMachine
