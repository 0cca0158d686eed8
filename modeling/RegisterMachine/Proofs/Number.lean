import Mathlib.Algebra.Order.Ring.Int
import Mathlib.Data.Nat.Cast.Order.Basic
import Mathlib.Data.Prod.Lex
import Mathlib.Order.Compare

/-!
# The order of floating-point numbers

Two numbers are compared by their signs, then by their exponents and then by their mantissas, and an
undefined number compares with nothing.  So comparison is that of a rank in a lexicographic order:
the order is transitive, and equality does not depend on the sides.
-/

namespace RegisterMachine
namespace Number

open Float.Model Float.Model.UnpackedFloat

/-- Where a number stands among the others.  Nothing is compared with an undefined number, so its
rank does not matter. -/
def rank : UnpackedFloat → ℤ ×ₗ ℤ ×ₗ ℤ
  | .infinity .negative => toLex (-2, toLex (0, 0))
  | .finite .negative m e _ => toLex (-1, toLex (-e, -m))
  | .zero _ | .notANumber => toLex (0, toLex (0, 0))
  | .finite .positive m e _ => toLex (1, toLex (e, m))
  | .infinity .positive => toLex (2, toLex (0, 0))

theorem compare_toLex {α β : Type} [Ord α] [Ord β] (x y : α) (p q : β) :
    compare (toLex (x, p)) (toLex (y, q)) = (compare x y).then (compare p q) := by
  rw [Prod.Lex.compare_def]
  rfl

theorem compare_natCast (m n : ℕ) : compare (m : ℤ) (n : ℤ) = compare m n := by
  rw [← cmp_eq_compare, ← cmp_eq_compare, Nat.strictMono_cast.cmp_map_eq]

theorem compare_neg (a b : ℤ) : compare (-a) (-b) = (compare a b).swap := by
  have hneg : StrictAnti (fun x : ℤ => -x) := fun _ _ => neg_lt_neg
  rw [Int.compare_swap, ← cmp_eq_compare, ← cmp_eq_compare]
  exact hneg.cmp_map_eq a b

theorem compare_eq_rank {a b : UnpackedFloat} (ha : a ≠ .notANumber) (hb : b ≠ .notANumber) :
    a.compare b = some (compare (rank a) (rank b)) := by
  cases a with
  | notANumber => exact absurd rfl ha
  | infinity s =>
    cases b with
    | notANumber => exact absurd rfl hb
    | infinity t => cases s <;> cases t <;> rfl
    | zero t => cases s <;> rfl
    | finite t m e hm => cases s <;> cases t <;> rfl
  | zero s =>
    cases b with
    | notANumber => exact absurd rfl hb
    | infinity t => cases t <;> rfl
    | zero t => rfl
    | finite t m e hm => cases t <;> rfl
  | finite s m e hm =>
    cases b with
    | notANumber => exact absurd rfl hb
    | infinity t => cases s <;> cases t <;> rfl
    | zero t => cases s <;> rfl
    | finite t m' e' hm' =>
      -- Only here the signs do not decide, and below zero the order is the other way round.
      cases s with
      | positive =>
        cases t with
        | negative => rfl
        | positive =>
          show _ = some (compare (toLex ((1 : ℤ), toLex (e, (m : ℤ)))) (toLex (1, toLex (e', ↑m'))))
          rw [compare_toLex, compare_toLex, compare_natCast]
          rfl
      | negative =>
        cases t with
        | positive => rfl
        | negative =>
          show _ = some
            (compare (toLex ((-1 : ℤ), toLex (-e, -(m : ℤ)))) (toLex (-1, toLex (-e', -↑m'))))
          rw [compare_toLex, compare_toLex, compare_neg e, compare_neg m, compare_natCast,
            ← Ordering.swap_then]
          rfl

theorem compare_eq_none {a b : UnpackedFloat} (h : a = .notANumber ∨ b = .notANumber) :
    a.compare b = none := by
  rcases h with rfl | rfl
  · rfl
  · cases a <;> rfl

/-- Two numbers compare as their ranks do, unless one of them is undefined. -/
theorem compare_eq_some_iff {a b : UnpackedFloat} {o : Ordering} :
    a.compare b = some o ↔
      a ≠ .notANumber ∧ b ≠ .notANumber ∧ Ord.compare (rank a) (rank b) = o := by
  by_cases h : a = .notANumber ∨ b = .notANumber
  · rw [compare_eq_none h]
    rcases h with rfl | rfl <;> simp
  · obtain ⟨ha, hb⟩ := not_or.mp h
    rw [compare_eq_rank ha hb]
    simp [ha, hb]

theorem lt_iff_rank {a b : UnpackedFloat} :
    a.lt b = true ↔ a ≠ .notANumber ∧ b ≠ .notANumber ∧ rank a < rank b := by
  rw [UnpackedFloat.lt, beq_iff_eq, compare_eq_some_iff, compare_lt_iff_lt]

theorem le_iff_rank {a b : UnpackedFloat} :
    a.le b = true ↔ a ≠ .notANumber ∧ b ≠ .notANumber ∧ rank a ≤ rank b := by
  rw [UnpackedFloat.le, Option.any_eq_true]
  simp only [compare_eq_some_iff]
  constructor
  · intro h
    obtain ⟨o, ⟨ha, hb, rfl⟩, hle⟩ := h
    exact ⟨ha, hb, compare_le_iff_le.mp (Ordering.isLE_iff_ne_gt.mp hle)⟩
  · intro h
    obtain ⟨ha, hb, hle⟩ := h
    exact ⟨_, ⟨ha, hb, rfl⟩, Ordering.isLE_iff_ne_gt.mpr (compare_le_iff_le.mpr hle)⟩

theorem beq_iff_rank {a b : UnpackedFloat} :
    a.beq b = true ↔ a ≠ .notANumber ∧ b ≠ .notANumber ∧ rank a = rank b := by
  show (a.compare b == some .eq) = true ↔ _
  rw [beq_iff_eq, compare_eq_some_iff, compare_eq_iff_eq]

theorem float_lt_of_le_of_lt {x y z : Float} (hxy : x ≤ y) (hyz : y < z) : x < z := by
  obtain ⟨hx, -, hle⟩ := le_iff_rank.mp (of_decide_eq_true hxy)
  obtain ⟨-, hz, hlt⟩ := lt_iff_rank.mp (of_decide_eq_true hyz)
  exact decide_eq_true (lt_iff_rank.mpr ⟨hx, hz, hle.trans_lt hlt⟩)

theorem float_beq_comm (x y : Float) : (x == y) = (y == x) := by
  have hiff (a b : UnpackedFloat) (h : a.beq b = true) : b.beq a = true := by
    obtain ⟨ha, hb, hrank⟩ := beq_iff_rank.mp h
    exact beq_iff_rank.mpr ⟨hb, ha, hrank.symm⟩
  exact Bool.eq_iff_iff.mpr ⟨hiff _ _, hiff _ _⟩

end Number
end RegisterMachine
