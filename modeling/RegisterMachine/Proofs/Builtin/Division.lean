import RegisterMachine.Proofs.Builtin.Fold
import RegisterMachine.Proofs.Word

/-!
# Division and remainder

Dividing by one operand after the other is dividing once by their product, rounded toward zero.  The
product need not fit in a word, but the quotients do: they never grow, and the one quotient of words
that is out of range is that of the least word by minus one.  The least word cannot come up on the
way unless the fold starts with it, so the fold is exact from every other start.  A remainder is
smaller than each of the operands, not larger than what is divided, and of its sign.
-/

namespace RegisterMachine
namespace IntFold

/-- Truncated quotients compose, whatever the signs. -/
theorem tdiv_tdiv (a b c : Int) : (a.tdiv b).tdiv c = a.tdiv (b * c) := by
  have hnat (m n k : Nat) : ((m : Int).tdiv n).tdiv k = (m : Int).tdiv (n * k) := by
    rw [← Int.ofNat_tdiv, ← Int.ofNat_tdiv, ← Int.natCast_mul, ← Int.ofNat_tdiv,
      Nat.div_div_eq_div_mul]
  obtain ⟨m, rfl | rfl⟩ := a.eq_nat_or_neg <;> obtain ⟨n, rfl | rfl⟩ := b.eq_nat_or_neg <;>
    obtain ⟨k, rfl | rfl⟩ := c.eq_nat_or_neg <;>
    simp only [Int.neg_tdiv, Int.tdiv_neg, Int.neg_mul, Int.mul_neg, Int.neg_neg, hnat]

/-! ## Quotients -/

/-- A quotient is exact, and it is not the least word either, if what is divided is not. -/
theorem toInt_div {a : Int64} (ha : a ≠ Int64.minValue) (b : Int64) :
    (a / b).toInt = a.toInt.tdiv b.toInt ∧ a / b ≠ Int64.minValue := by
  have hquotient := Int64.toInt_div_of_ne_left a b ha
  refine ⟨hquotient, fun hmin => ?_⟩
  have habs := Int.natAbs_tdiv_le_natAbs a.toInt b.toInt
  rw [← hquotient, hmin, Int64.toInt_minValue] at habs
  have hne : a.toInt ≠ -2 ^ 63 := fun e => ha (Int64.toInt_inj.mp e)
  have hlow := a.le_toInt
  have hhigh := a.toInt_lt
  omega

theorem div_step {b : Int64} (hb : b ≠ 0) (a : Int64) : div.step a b = some (a / b) :=
  if_neg hb

theorem foldlM_div {s : Int64} (hs : s ≠ Int64.minValue) {words : List Int64}
    (hz : (0 : Int64) ∉ words) :
    ∃ q, words.foldlM div.step s = some q ∧
      q.toInt = s.toInt.tdiv (words.map Int64.toInt).prod ∧ q ≠ Int64.minValue := by
  induction words generalizing s with
  | nil => exact ⟨s, rfl, by rw [List.map_nil, List.prod_nil, Int.tdiv_one], hs⟩
  | cons w rest ih =>
    rw [List.mem_cons, not_or] at hz
    obtain ⟨hstep, hnext⟩ := toInt_div hs w
    obtain ⟨q, hfold, hq, hmin⟩ := ih hnext hz.2
    refine ⟨q, ?_, ?_, hmin⟩
    · rw [List.foldlM_cons, div_step (Ne.symm hz.1)]
      exact hfold
    · rw [hq, hstep, tdiv_tdiv, List.map_cons, List.prod_cons]

/-- Each step of the fold leaves the quotient of the integers, without wrapping around. -/
def DividesExactly (s : Int64) (words : List Int64) : Prop :=
  ∀ before v after, words = before ++ v :: after →
    ∃ a q, before.foldlM div.step s = some a ∧ div.step a v = some q ∧
      q.toInt = a.toInt.tdiv v.toInt

theorem dividesExactly {s : Int64} (hs : s ≠ Int64.minValue) {words : List Int64}
    (hz : (0 : Int64) ∉ words) : DividesExactly s words := by
  rintro before v after rfl
  rw [List.mem_append, List.mem_cons, not_or, not_or] at hz
  obtain ⟨a, hfold, -, ha⟩ := foldlM_div hs hz.1
  exact ⟨a, a / v, hfold, div_step (Ne.symm hz.2.1) a, (toInt_div ha v).1⟩

theorem foldlM_div_perm {s : Int64} (hs : s ≠ Int64.minValue) {us vs : List Int64}
    (h : us.Perm vs) : us.foldlM div.step s = vs.foldlM div.step s := by
  have hdivides : (Fold.int .div).Divides := .inl rfl
  by_cases hu : (0 : Int64) ∈ us
  · have hv : (0 : Int64) ∈ vs := h.mem_iff.mp hu
    exact (Fold.foldlM_step_of_zero hdivides hu s).trans
      (Fold.foldlM_step_of_zero hdivides hv s).symm
  · have hv : (0 : Int64) ∉ vs := fun hm => hu (h.mem_iff.mpr hm)
    obtain ⟨q, hfold, hq, -⟩ := foldlM_div hs hu
    obtain ⟨q', hfold', hq', -⟩ := foldlM_div hs hv
    have hprod : (us.map Int64.toInt).prod = (vs.map Int64.toInt).prod := (h.map _).prod_eq
    rw [hfold, hfold', Int64.toInt_inj.mp (hq.trans (hprod ▸ hq'.symm))]

/-! ## Remainders -/

/-- What remains of `s` after the remainders by all of `vs` in turn. -/
structure Remains (s : Int) (vs : List Int) (r : Int) : Prop where
  value : r = vs.foldl Int.tmod s
  below : ∀ v ∈ vs, r.natAbs < v.natAbs
  notAbove : r.natAbs ≤ s.natAbs
  sign : r = 0 ∨ r.sign = s.sign

theorem remains_nil (s : Int) : Remains s [] s :=
  ⟨rfl, fun _ hv => (nomatch hv), Nat.le_refl _, .inr rfl⟩

/-- A remainder from which further remainders are taken. -/
theorem Remains.cons {s v r : Int} {vs : List Int} (hv : v ≠ 0)
    (h : Remains (s.tmod v) vs r) : Remains s (v :: vs) r := by
  have hbelow : (s.tmod v).natAbs < v.natAbs := by
    rw [Int.natAbs_tmod]
    exact Nat.mod_lt _ (Int.natAbs_pos.mpr hv)
  have hle : (s.tmod v).natAbs ≤ s.natAbs := by
    rw [Int.natAbs_tmod]
    exact Nat.mod_le _ _
  refine ⟨h.value, ?_, h.notAbove.trans hle, ?_⟩
  · intro x hx
    rcases List.mem_cons.mp hx with rfl | hx
    · exact Nat.lt_of_le_of_lt h.notAbove hbelow
    · exact h.below x hx
  · rcases h.sign with hr | hr
    · exact .inl hr
    · rw [Int.sign_tmod] at hr
      by_cases hd : v ∣ s
      · rw [if_pos hd] at hr
        exact .inl (Int.sign_eq_zero_iff_zero.mp hr)
      · rw [if_neg hd] at hr
        exact .inr hr

theorem mod_step {b : Int64} (hb : b ≠ 0) (a : Int64) : mod.step a b = some (a % b) :=
  if_neg hb

theorem foldlM_mod (s : Int64) {words : List Int64} (hz : (0 : Int64) ∉ words) :
    ∃ r, words.foldlM mod.step s = some r ∧
      Remains s.toInt (words.map Int64.toInt) r.toInt := by
  induction words generalizing s with
  | nil => exact ⟨s, rfl, remains_nil s.toInt⟩
  | cons w rest ih =>
    rw [List.mem_cons, not_or] at hz
    have hw : w.toInt ≠ 0 := fun e => hz.1 (Int64.toInt_inj.mp e).symm
    obtain ⟨r, hfold, hr⟩ := ih (s % w) hz.2
    rw [Int64.toInt_mod] at hr
    refine ⟨r, ?_, hr.cons hw⟩
    rw [List.foldlM_cons, mod_step (Ne.symm hz.1)]
    exact hfold

/-- Quotient and remainder make up what was divided, where the quotient is a word. -/
theorem div_mul_add_mod {s v : Int64} (h : ¬(s = Int64.minValue ∧ v = -1)) :
    (s / v).toInt * v.toInt + (s % v).toInt = s.toInt := by
  have hquotient : (s / v).toInt = s.toInt.tdiv v.toInt := by
    by_cases hs : s = Int64.minValue
    · exact Int64.toInt_div_of_ne_right s v fun e => h ⟨hs, e⟩
    · exact Int64.toInt_div_of_ne_left s v hs
  rw [hquotient, Int64.toInt_mod, Int.tdiv_mul_add_tmod]

end IntFold

namespace Builtin

/-- With operands that denote `words`, the two divisions are refused exactly when one of the words is
zero, and otherwise succeed on all words.  Unless the destination holds the least word, the quotient
is that by the product of the operands, rounded toward zero and without wrapping around at any step,
and the order of the operands does not matter.  The remainder is below every operand, not above what
the destination held, and of its sign.  With one operand the two make up what was divided, but for
the least word and minus one. -/
theorem run_division (context : Context) (target : String) (tokens : List String) (s : Int64)
    (words : List Int64) (hn : 1 ≤ tokens.length ∧ tokens.length ≤ 15)
    (present : context.registers.read? .int target = some s)
    (denoted : List.Forall₂ (context.registers.Denotes .int) tokens words) :
    let run (op : IntFold) := (fold (.int op)).run (target :: tokens) context
    let stored (w : Int64) : Context :=
      { context with registers := context.registers.write target (.int w) }
    (∀ op : IntFold, (Fold.int op).Divides →
      (run op = .error (.divisionByZero target) context ↔ (0 : Int64) ∈ words) ∧
      ((0 : Int64) ∉ words → ∃ w, run op = .ok () (stored w))) ∧
    (s ≠ Int64.minValue →
      ((0 : Int64) ∉ words →
        (∃ q, run .div = .ok () (stored q) ∧
          q.toInt = s.toInt.tdiv (words.map Int64.toInt).prod) ∧
        IntFold.DividesExactly s words) ∧
      ∀ tokens', tokens.Perm tokens' →
        (fold (.int .div)).run (target :: tokens') context = run .div) ∧
    ((0 : Int64) ∉ words → ∃ r, run .mod = .ok () (stored r) ∧
      IntFold.Remains s.toInt (words.map Int64.toInt) r.toInt) ∧
    ∀ v : Int64, words = [v] → v ≠ 0 → ¬(s = Int64.minValue ∧ v = -1) →
      ∃ q r, run .div = .ok () (stored q) ∧ run .mod = .ok () (stored r) ∧
        q.toInt * v.toInt + r.toInt = s.toInt := by
  intro run stored
  have hsome {op : IntFold} {w : Int64} (h : words.foldlM op.step s = some w) :
      run op = .ok () (stored w) :=
    run_of_foldlM_eq_some hn present denoted h
  refine ⟨fun op hop => ?_, fun hs => ⟨fun hz => ⟨?_, IntFold.dividesExactly hs hz⟩, ?_⟩, ?_, ?_⟩
  · have hok (hz : (0 : Int64) ∉ words) : ∃ w, run op = .ok () (stored w) :=
      ⟨_, hsome (@Fold.foldlM_step (.int op) words (fun _ => hz) s)⟩
    refine ⟨⟨fun h => ?_, fun hz => ?_⟩, hok⟩
    · by_contra hz
      obtain ⟨w, hw⟩ := hok hz
      rw [h] at hw
      cases hw
    · exact run_of_foldlM_eq_none hn present denoted (Fold.foldlM_step_of_zero hop hz s)
  · obtain ⟨q, hfold, hq, -⟩ := IntFold.foldlM_div hs hz
    exact ⟨q, hsome hfold, hq⟩
  · intro tokens' p
    exact run_fold_perm hn present denoted p fun words' hp => IntFold.foldlM_div_perm hs hp
  · intro hz
    obtain ⟨r, hfold, hr⟩ := IntFold.foldlM_mod s hz
    exact ⟨r, hsome hfold, hr⟩
  · rintro v rfl hv hmin
    refine ⟨s / v, s % v, hsome ?_, hsome ?_, IntFold.div_mul_add_mod hmin⟩
    · rw [List.foldlM_cons, IntFold.div_step hv]
      rfl
    · rw [List.foldlM_cons, IntFold.mod_step hv]
      rfl

/-- The first quotient is the greatest word, the nearest that a quotient comes to wrapping around. -/
theorem run_division_greatest :
    let context : Context := { registers := Bank.ofPoints [("a", .int (-9223372036854775807))] }
    let words : List Int64 := [-1, 9223372036854775807]
    context.registers.read? .int "a" = some (-9223372036854775807 : Int64) ∧
      List.Forall₂ (context.registers.Denotes .int) ["-1", "9223372036854775807"] words ∧
      IntFold.DividesExactly (-9223372036854775807) words ∧
      (fold (.int .div)).run ["a", "-1", "9223372036854775807"] context = .ok ()
        { registers := context.registers.write "a" (.int 1) } := by
  intro context words
  have present : context.registers.read? .int "a" = some (-9223372036854775807 : Int64) := rfl
  have denoted : List.Forall₂ (context.registers.Denotes .int) ["-1", "9223372036854775807"]
      words :=
    .cons (.literal rfl rfl) (.cons (.literal rfl rfl) .nil)
  have hs : (-9223372036854775807 : Int64) ≠ Int64.minValue := by decide
  have hz : (0 : Int64) ∉ words := by decide
  obtain ⟨⟨q, hrun, hq⟩, hexact⟩ := ((run_division context "a" ["-1", "9223372036854775807"]
    (-9223372036854775807) words (by decide) present denoted).2.1 hs).1 hz
  obtain rfl : q = 1 := Int64.toInt_inj.mp (hq.trans rfl)
  exact ⟨present, denoted, hexact, hrun⟩

end Builtin
end RegisterMachine
