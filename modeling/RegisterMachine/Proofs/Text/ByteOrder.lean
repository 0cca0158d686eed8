import Mathlib.Algebra.Group.Nat.Defs
import RegisterMachine.Text.Line

/-!
# The order of texts is the order of their bytes

Texts are compared by the code points of their characters.  UTF-8 keeps this order: of two different
characters, the encoding of the smaller one is below that of the larger one at a byte that both
have, and then what follows the two characters has no say.
-/

namespace RegisterMachine
namespace Text

def bytes (s : String) : List UInt8 :=
  s.toUTF8.data.toList

theorem bytes_eq_flatMap (s : String) : bytes s = s.toList.flatMap String.utf8EncodeChar := by
  show s.toByteArray.data.toList = _
  rw [← String.utf8Encode_toList, List.utf8Encode, List.toList_data_toByteArray]

/-- The first difference of the two lists is at a byte that both have, and it is smaller in the first
of them. -/
inductive Below : List UInt8 → List UInt8 → Prop
  | here {x y : UInt8} {xs ys : List UInt8} (lt : x < y) : Below (x :: xs) (y :: ys)
  | later {x : UInt8} {xs ys : List UInt8} (rest : Below xs ys) : Below (x :: xs) (x :: ys)

namespace Below

theorem append_lt {xs ys : List UInt8} (h : Below xs ys) (us vs : List UInt8) :
    xs ++ us < ys ++ vs := by
  induction h with
  | here lt => exact List.cons_lt_cons_iff.mpr (.inl lt)
  | later rest ih => exact List.cons_lt_cons_iff.mpr (.inr ⟨rfl, ih⟩)

theorem ofNat {a b : Nat} {xs ys : List UInt8} (hb : b < 256)
    (h : a < b ∨ a = b ∧ Below xs ys) : Below (UInt8.ofNat a :: xs) (UInt8.ofNat b :: ys) := by
  rcases h with hlt | ⟨rfl, hrest⟩
  · have ha : a < 256 := by omega
    refine .here ?_
    rw [UInt8.lt_iff_toNat_lt, UInt8.toNat_ofNat_of_lt' ha, UInt8.toNat_ofNat_of_lt' hb]
    exact hlt
  · exact .later hrest

end Below

/-! ## One character

A character is written as a leading byte, which tells how many bytes follow it, and then its last
digits in base 64. -/

/-- The last `n` digits of `v` in base 64, as bytes. -/
def digits : Nat → Nat → List UInt8
  | 0, _ => []
  | n + 1, v => UInt8.ofNat (v / 64 ^ n % 64 + 0x80) :: digits n v

theorem below_digits {n v w : Nat} (h : v % 64 ^ n < w % 64 ^ n) :
    Below (digits n v) (digits n w) := by
  induction n with
  | zero =>
    rw [Nat.pow_zero, Nat.mod_one, Nat.mod_one] at h
    exact absurd h (Nat.lt_irrefl 0)
  | succ n ih =>
    have hv := Nat.mod_pow_succ (x := v) (b := 64) (k := n)
    have hw := Nat.mod_pow_succ (x := w) (b := 64) (k := n)
    have hlt : v % 64 ^ n < 64 ^ n := Nat.mod_lt _ (Nat.pow_pos (by decide))
    have hlt' : w % 64 ^ n < 64 ^ n := Nat.mod_lt _ (Nat.pow_pos (by decide))
    rw [hv, hw] at h
    refine .ofNat (by omega) ?_
    rcases Nat.lt_trichotomy (v / 64 ^ n % 64) (w / 64 ^ n % 64) with hd | hd | hd
    · exact .inl (Nat.add_lt_add_right hd _)
    · rw [hd] at h ⊢
      exact .inr ⟨rfl, ih (Nat.lt_of_add_lt_add_right h)⟩
    · -- A larger digit outweighs all digits after it.
      have hmul : 64 ^ n * (w / 64 ^ n % 64 + 1) ≤ 64 ^ n * (v / 64 ^ n % 64) :=
        Nat.mul_le_mul_left _ hd
      rw [Nat.mul_add, Nat.mul_one] at hmul
      omega

def trailing (v : Nat) : Nat :=
  if v ≤ 0x7F then 0 else if v ≤ 0x7FF then 1 else if v ≤ 0xFFFF then 2 else 3

def lead (v : Nat) : Nat :=
  if v ≤ 0x7F then v
  else if v ≤ 0x7FF then v / 64 + 0xC0
  else if v ≤ 0xFFFF then v / 4096 + 0xE0
  else v / 262144 + 0xF0

theorem lead_trailing_cases (v : Nat) :
    (v ≤ 0x7F ∧ lead v = v ∧ trailing v = 0) ∨
    (0x7F < v ∧ v ≤ 0x7FF ∧ lead v = v / 64 + 0xC0 ∧ trailing v = 1) ∨
    (0x7FF < v ∧ v ≤ 0xFFFF ∧ lead v = v / 4096 + 0xE0 ∧ trailing v = 2) ∨
    (0xFFFF < v ∧ lead v = v / 262144 + 0xF0 ∧ trailing v = 3) := by
  unfold lead trailing
  by_cases h1 : v ≤ 0x7F
  · exact .inl ⟨h1, if_pos h1, if_pos h1⟩
  · by_cases h2 : v ≤ 0x7FF
    · refine .inr (.inl ⟨by omega, h2, ?_⟩)
      simp [h1, h2]
    · by_cases h3 : v ≤ 0xFFFF
      · refine .inr (.inr (.inl ⟨by omega, h3, ?_⟩))
        simp [h1, h2, h3]
      · refine .inr (.inr (.inr ⟨by omega, ?_⟩))
        simp [h1, h2, h3]

theorem toNat_lt (c : Char) : c.val.toNat < 0x110000 := by
  have hv := c.valid
  simp only [UInt32.isValidChar, Nat.isValidChar] at hv
  omega

theorem utf8EncodeChar_eq (c : Char) :
    String.utf8EncodeChar c =
      UInt8.ofNat (lead c.val.toNat) :: digits (trailing c.val.toNat) c.val.toNat := by
  have hc := toNat_lt c
  unfold String.utf8EncodeChar
  generalize c.val.toNat = v at hc
  obtain ⟨h, hl, ht⟩ | ⟨h1, h2, hl, ht⟩ | ⟨h1, h2, hl, ht⟩ | ⟨h1, hl, ht⟩ := lead_trailing_cases v
  · simp [hl, ht, h, digits]
  · have hm : v / 64 % 32 = v / 64 := Nat.mod_eq_of_lt (by omega)
    have hn : ¬v ≤ 127 := by omega
    simp [hl, ht, hn, h2, hm, digits]
  · have hm : v / 4096 % 16 = v / 4096 := Nat.mod_eq_of_lt (by omega)
    have hn : ¬v ≤ 127 ∧ ¬v ≤ 2047 := by omega
    simp [hl, ht, hn, h2, hm, digits]
  · have hm : v / 262144 % 8 = v / 262144 := Nat.mod_eq_of_lt (by omega)
    have hn : ¬v ≤ 127 ∧ ¬v ≤ 2047 ∧ ¬v ≤ 65535 := by omega
    simp [hl, ht, hn, hm, digits]

theorem lead_lt_256 {v : Nat} (h : v < 0x110000) : lead v < 256 := by
  have hc := lead_trailing_cases v
  omega

/-- Where the leading bytes do not decide, the digits after them do. -/
theorem lead_lt_or {v w : Nat} (h : v < w) :
    lead v < lead w ∨
      lead v = lead w ∧ trailing v = trailing w ∧ v % 64 ^ trailing v < w % 64 ^ trailing v := by
  have hw := lead_trailing_cases w
  obtain ⟨hv, hl, ht⟩ | ⟨hv, hv', hl, ht⟩ | ⟨hv, hv', hl, ht⟩ | ⟨hv, hl, ht⟩ :=
    lead_trailing_cases v
  all_goals
    rw [ht]
    simp only [Nat.reducePow]
    omega

theorem below_encode {c d : Char} (h : c < d) :
    Below (String.utf8EncodeChar c) (String.utf8EncodeChar d) := by
  have hlt : c.val.toNat < d.val.toNat := h
  rw [utf8EncodeChar_eq, utf8EncodeChar_eq]
  refine .ofNat (lead_lt_256 (toNat_lt d)) ?_
  rcases lead_lt_or hlt with hl | ⟨hl, ht, hr⟩
  · exact .inl hl
  · rw [← ht]
    exact .inr ⟨hl, below_digits hr⟩

/-! ## Texts -/

theorem flatMap_encode_lt {cs ds : List Char} (h : cs < ds) :
    cs.flatMap String.utf8EncodeChar < ds.flatMap String.utf8EncodeChar := by
  induction h with
  | @nil d ds =>
    rw [List.flatMap_cons, utf8EncodeChar_eq]
    exact List.nil_lt_cons _ _
  | @rel c cs d ds hcd =>
    rw [List.flatMap_cons, List.flatMap_cons]
    exact (below_encode hcd).append_lt _ _
  | cons _ ih =>
    rw [List.flatMap_cons, List.flatMap_cons]
    exact List.append_left_lt ih

theorem bytes_lt {s t : String} (h : s < t) : bytes s < bytes t := by
  rw [bytes_eq_flatMap, bytes_eq_flatMap]
  exact flatMap_encode_lt (String.lt_iff.mp h)

end Text
end RegisterMachine
