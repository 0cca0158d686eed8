import RegisterMachine.Proofs.Builtin.Fold
import RegisterMachine.Proofs.Word

/-!
# Integer folds over unbounded integers

A word is cut down to 64 bits at every step of a fold, and yet the result of a whole fold is that of
one computation on unbounded integers which is cut down once.  `Exact` says what that computation is
for each operation but the two divisions.  A single step satisfies it, and it composes: a fold that
starts from the result of a step is a fold of one operand more.  Since none of these computations
depends on the order of the operands, neither does the instruction.
-/

namespace RegisterMachine
namespace IntFold

open Word (wrap)

/-- How far shifts by all of `vs` go together.  Each amount counts modulo 64, so that a negative one
is not negative any more, but the sum may well exceed 63. -/
def shiftSum (vs : List Int) : Nat :=
  (vs.map fun v => (v % 64).toNat).sum

/-- The integer that folding `vs` into `s` leaves. -/
inductive Exact (s : Int) (vs : List Int) : IntFold → Int → Prop
  | add {r : Int} (total : r = wrap (s + vs.sum)) : Exact s vs .add r
  | sub {r : Int} (total : r = wrap (s - vs.sum)) : Exact s vs .sub r
  | mul {r : Int} (total : r = wrap (s * vs.prod)) : Exact s vs .mul r
  | min {r : Int} (least : r ∈ s :: vs ∧ ∀ v ∈ s :: vs, r ≤ v) : Exact s vs .min r
  | max {r : Int} (greatest : r ∈ s :: vs ∧ ∀ v ∈ s :: vs, v ≤ r) : Exact s vs .max r
  | and {r : Int} (bits : ∀ i, r.testBit i = (s :: vs).all (·.testBit i)) : Exact s vs .and r
  | or {r : Int} (bits : ∀ i, r.testBit i = (s :: vs).any (·.testBit i)) : Exact s vs .or r
  | xor {r : Int} (bits : ∀ i, r.testBit i = decide ((s :: vs).countP (·.testBit i) % 2 = 1)) :
      Exact s vs .xor r
  | shl {r : Int} (total : r = wrap (s * 2 ^ shiftSum vs)) : Exact s vs .shl r
  | shr {r : Int} (total : r = s.fdiv (2 ^ shiftSum vs)) : Exact s vs .shr r

variable {op : IntFold}

@[simp] theorem shiftSum_nil : shiftSum [] = 0 := rfl

@[simp] theorem shiftSum_cons (v : Int) (vs : List Int) :
    shiftSum (v :: vs) = (v % 64).toNat + shiftSum vs := by
  rw [shiftSum, List.map_cons, List.sum_cons, shiftSum]

/-- Whether an odd number of the integers has bit `i` set. -/
theorem odd_countP_cons (i : Nat) (v : Int) (vs : List Int) :
    decide ((v :: vs).countP (·.testBit i) % 2 = 1) =
      (v.testBit i ^^ decide (vs.countP (·.testBit i) % 2 = 1)) := by
  rw [List.countP_cons]
  cases v.testBit i with
  | false => simp
  | true =>
    rw [if_pos rfl, Bool.true_xor, ← decide_not, decide_eq_decide]
    omega

/-- A step of the fold computes exactly. -/
theorem step_exact (hop : ¬(Fold.int op).Divides) (a b : Int64) :
    ∃ r, op.step a b = some r ∧ op.Exact a.toInt [b.toInt] r.toInt := by
  cases op with
  | add => exact ⟨a + b, rfl, .add (by rw [List.sum_singleton, Int64.toInt_add, wrap])⟩
  | sub => exact ⟨a - b, rfl, .sub (by rw [List.sum_singleton, Int64.toInt_sub, wrap])⟩
  | mul => exact ⟨a * b, rfl, .mul (by rw [List.prod_singleton, Int64.toInt_mul, wrap])⟩
  | div => exact absurd (.inl rfl) hop
  | mod => exact absurd (.inr rfl) hop
  | min =>
    refine ⟨if b < a then b else a, rfl, .min ?_⟩
    rw [Word.toInt_lesser]
    simp only [List.mem_cons, List.not_mem_nil, or_false, forall_eq_or_imp, forall_eq]
    omega
  | max =>
    refine ⟨if a < b then b else a, rfl, .max ?_⟩
    rw [Word.toInt_greater]
    simp only [List.mem_cons, List.not_mem_nil, or_false, forall_eq_or_imp, forall_eq]
    omega
  | and => exact ⟨a &&& b, rfl, .and fun i => by simp⟩
  | or => exact ⟨a ||| b, rfl, .or fun i => by simp⟩
  | xor =>
    refine ⟨a ^^^ b, rfl, .xor fun i => ?_⟩
    rw [odd_countP_cons, odd_countP_cons]
    simp
  | shl => exact ⟨a <<< b, rfl, .shl (by simp)⟩
  | shr => exact ⟨a >>> b, rfl, .shr (by simp)⟩

/-- An extreme of the rest and of the extreme of two more is an extreme of them all. -/
theorem extreme_cons (R : Int → Int → Prop) (htrans : ∀ {x y z}, R x y → R y z → R x z)
    {s m r v : Int} {vs : List Int} (hm : m ∈ [s, v] ∧ ∀ x ∈ [s, v], R m x)
    (hr : r ∈ m :: vs ∧ ∀ x ∈ m :: vs, R r x) :
    r ∈ s :: v :: vs ∧ ∀ x ∈ s :: v :: vs, R r x := by
  have hrm : R r m := hr.2 m List.mem_cons_self
  constructor
  · rcases List.mem_cons.mp hr.1 with rfl | hmem
    · exact List.mem_append_left vs hm.1
    · exact List.mem_append_right [s, v] hmem
  · intro x hx
    rcases List.mem_append.mp (show x ∈ [s, v] ++ vs from hx) with hx | hx
    · exact htrans hrm (hm.2 x hx)
    · exact hr.2 x (List.mem_cons_of_mem m hx)

namespace Exact

variable {s m r v : Int} {vs : List Int}

/-- A fold that goes on from the result of its first step. -/
theorem cons (hm : op.Exact s [v] m) (hr : op.Exact m vs r) : op.Exact s (v :: vs) r := by
  cases hr with
  | add total =>
    cases hm with
    | add sum =>
      refine .add ?_
      rw [total, sum, Word.wrap_add, List.sum_singleton, List.sum_cons, Int.add_assoc]
  | sub total =>
    cases hm with
    | sub difference =>
      refine .sub ?_
      rw [total, difference, Word.wrap_sub, List.sum_singleton, List.sum_cons, Int.sub_sub]
  | mul total =>
    cases hm with
    | mul product =>
      refine .mul ?_
      rw [total, product, Word.wrap_mul, List.prod_singleton, List.prod_cons, Int.mul_assoc]
  | min least =>
    cases hm with
    | min lesser =>
      exact .min (extreme_cons (· ≤ ·) Int.le_trans lesser least)
  | max greatest =>
    cases hm with
    | max greater =>
      exact .max (extreme_cons (· ≥ ·) ge_trans greater greatest)
  | and bits =>
    cases hm with
    | and both =>
      refine .and fun i => ?_
      rw [bits, List.all_cons, both]
      simp [Bool.and_assoc]
  | or bits =>
    cases hm with
    | or either =>
      refine .or fun i => ?_
      rw [bits, List.any_cons, either]
      simp [Bool.or_assoc]
  | xor bits =>
    cases hm with
    | xor differing =>
      refine .xor fun i => ?_
      rw [bits, odd_countP_cons, differing]
      simp only [odd_countP_cons]
      simp
  | shl total =>
    cases hm with
    | shl shifted =>
      refine .shl ?_
      simp [total, shifted, Int.mul_assoc, ← pow_add]
  | shr total =>
    cases hm with
    | shr shifted =>
      refine .shr ?_
      simp only [total, shifted, shiftSum_cons, shiftSum_nil, add_zero]
      rw [Int.fdiv_fdiv_eq_fdiv_mul s (by positivity) (by positivity), pow_add]

/-- The order of the operands does not matter. -/
theorem perm {us vs : List Int} (h : us.Perm vs) (hr : op.Exact s us r) : op.Exact s vs r := by
  have hcons : (s :: us).Perm (s :: vs) := h.cons s
  have hshift : shiftSum us = shiftSum vs := (h.map _).sum_eq
  cases hr with
  | add total => exact .add (by rw [total, h.sum_eq])
  | sub total => exact .sub (by rw [total, h.sum_eq])
  | mul total => exact .mul (by rw [total, h.prod_eq])
  | min least =>
    exact .min ⟨hcons.mem_iff.mp least.1, fun v hv => least.2 v (hcons.mem_iff.mpr hv)⟩
  | max greatest =>
    exact .max ⟨hcons.mem_iff.mp greatest.1, fun v hv => greatest.2 v (hcons.mem_iff.mpr hv)⟩
  | and bits => exact .and fun i => by rw [bits, hcons.all_eq]
  | or bits => exact .or fun i => by rw [bits, hcons.any_eq]
  | xor bits => exact .xor fun i => by rw [bits, hcons.countP_eq]
  | shl total => exact .shl (by rw [total, hshift])
  | shr total => exact .shr (by rw [total, hshift])

/-- No more than one word is the result. -/
theorem unique {w w' : Int64} (h : op.Exact s vs w.toInt) (h' : op.Exact s vs w'.toInt) :
    w = w' := by
  cases h with
  | add total | sub total | mul total | shl total | shr total =>
    cases h'
    rename_i total'
    exact Int64.toInt_inj.mp (total.trans total'.symm)
  | min least =>
    cases h' with
    | min least' =>
      have hle := least.2 _ least'.1
      have hge := least'.2 _ least.1
      exact Int64.toInt_inj.mp (Int.le_antisymm hle hge)
  | max greatest =>
    cases h' with
    | max greatest' =>
      have hle := greatest'.2 _ greatest.1
      have hge := greatest.2 _ greatest'.1
      exact Int64.toInt_inj.mp (Int.le_antisymm hle hge)
  | and bits | or bits | xor bits =>
    cases h'
    rename_i bits'
    exact Word.eq_of_testBit fun i => (bits i).trans (bits' i).symm

end Exact

/-! ## Whole folds -/

theorem foldlM_exact (hop : ¬(Fold.int op).Divides) (s : Int64) {words : List Int64}
    (hw : words ≠ []) :
    ∃ r, words.foldlM op.step s = some r ∧
      op.Exact s.toInt (words.map Int64.toInt) r.toInt := by
  induction words generalizing s with
  | nil => exact absurd rfl hw
  | cons w rest ih =>
    obtain ⟨m, hstep, hm⟩ := step_exact hop s w
    cases rest with
    | nil => exact ⟨m, by rw [List.foldlM_cons, hstep]; rfl, hm⟩
    | cons w' rest =>
      obtain ⟨r, hfold, hr⟩ := ih m (List.cons_ne_nil w' rest)
      refine ⟨r, ?_, hm.cons hr⟩
      rw [List.foldlM_cons, hstep]
      exact hfold

theorem foldlM_perm (hop : ¬(Fold.int op).Divides) (s : Int64) {us vs : List Int64}
    (h : us.Perm vs) : us.foldlM op.step s = vs.foldlM op.step s := by
  by_cases hu : us = []
  · subst hu
    rw [h.nil_eq]
  · have hv : vs ≠ [] := fun e => hu (List.perm_nil.mp (e ▸ h))
    obtain ⟨r, hfold, hr⟩ := foldlM_exact hop s hu
    obtain ⟨r', hfold', hr'⟩ := foldlM_exact hop s hv
    rw [hfold, hfold', (hr.perm (h.map _)).unique hr']

end IntFold

namespace Builtin

variable {op : IntFold} {context : Context} {target : String} {tokens tokens' : List String}

theorem run_perm_of_ok (hop : ¬(Fold.int op).Divides) (p : tokens.Perm tokens') {after : Context}
    (h : (fold (.int op)).run (target :: tokens) context = .ok () after) :
    (fold (.int op)).run (target :: tokens') context = .ok () after := by
  obtain ⟨hn, seed, words, present, denoted⟩ := denoted_of_run_fold h
  rw [run_fold_perm hn present denoted p fun words' hp => IntFold.foldlM_perm hop seed hp]
  exact h

/-- An integer fold of one to fifteen operands, other than a division, leaves the exact result on
unbounded integers.  The order of the operands changes neither whether it succeeds nor the registers
that it leaves. -/
theorem run_intFold_exact (op : IntFold) (hop : ¬(Fold.int op).Divides) :
    (∀ (context : Context) (target : String) (tokens : List String) (s : Int64)
        (words : List Int64), 1 ≤ tokens.length ∧ tokens.length ≤ 15 →
      context.registers.read? .int target = some s →
      List.Forall₂ (context.registers.Denotes .int) tokens words →
      ∃ r : Int64, (fold (.int op)).run (target :: tokens) context = .ok () { context with
          registers := context.registers.write target (.int r) } ∧
        op.Exact s.toInt (words.map Int64.toInt) r.toInt) ∧
    ∀ (context : Context) (target : String) (tokens tokens' : List String),
      tokens.Perm tokens' →
      (∃ after, (fold (.int op)).run (target :: tokens) context = .ok () after ∧
        (fold (.int op)).run (target :: tokens') context = .ok () after) ∨
      ∃ cause cause', (fold (.int op)).run (target :: tokens) context = .error cause context ∧
        (fold (.int op)).run (target :: tokens') context = .error cause' context := by
  constructor
  · intro context target tokens s words hn present denoted
    have hwords : words ≠ [] := by
      have hlength := denoted.length_eq
      rintro rfl
      rw [List.length_nil] at hlength
      omega
    obtain ⟨r, hfold, hr⟩ := IntFold.foldlM_exact hop s hwords
    exact ⟨r, run_of_foldlM_eq_some hn present denoted hfold, hr⟩
  · intro context target tokens tokens' p
    cases h : (fold (.int op)).run (target :: tokens) context with
    | ok u after => exact .inl ⟨after, rfl, run_perm_of_ok hop p h⟩
    | error cause after =>
      obtain rfl := (run_eq_error h).2
      cases h' : (fold (.int op)).run (target :: tokens') after with
      | ok u after' =>
        rw [run_perm_of_ok hop p.symm h'] at h
        cases h
      | error cause' after' =>
        obtain rfl := (run_eq_error h').2
        exact .inr ⟨cause, cause', rfl, rfl⟩

/-- Shifts to the left by a negative amount and by one beyond 63, which push out every bit together
although neither does alone. -/
theorem run_intFold_exact_shl :
    let context : Context := { registers := Bank.ofPoints [("a", .int 3)] }
    let after : Context := { registers := context.registers.write "a" (.int 0) }
    ¬(Fold.int .shl).Divides ∧ context.registers.read? .int "a" = some (3 : Int64) ∧
      List.Forall₂ (context.registers.Denotes .int) ["-1", "65"] [(-1 : Int64), (65 : Int64)] ∧
      (fold (.int .shl)).run ["a", "-1", "65"] context = .ok () after := by
  intro context after
  have hop : ¬(Fold.int .shl).Divides := by
    rintro (h | h) <;> cases h
  have present : context.registers.read? .int "a" = some (3 : Int64) := rfl
  have denoted : List.Forall₂ (context.registers.Denotes .int) ["-1", "65"]
      [(-1 : Int64), (65 : Int64)] :=
    .cons (.literal rfl rfl) (.cons (.literal rfl rfl) .nil)
  obtain ⟨r, hrun, hr⟩ := (run_intFold_exact .shl hop).1 context "a" ["-1", "65"] 3 [-1, 65]
    (by decide) present denoted
  have hzero : r = 0 := by
    cases hr with
    | shl total => exact Int64.toInt_inj.mp (total.trans rfl)
  subst hzero
  exact ⟨hop, present, denoted, hrun⟩

end Builtin
end RegisterMachine
