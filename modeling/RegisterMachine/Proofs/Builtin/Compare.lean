import RegisterMachine.Proofs.Bank.Denotation
import RegisterMachine.Proofs.Builtin.Plan
import RegisterMachine.Proofs.Number

/-!
# The comparisons among each other

A comparison writes one or zero as its operands compare in the bank before it, so it does not matter
whether the destination is among them.  What one comparison writes therefore determines what the
others write: integers are in a total order, in which a relation and its negation are never both
true or both false, and a relation is its converse with the operands exchanged.  Floating-point
numbers have no total order, since an undefined number is in no order with any; of the negations,
only that of equality remains.
-/

namespace RegisterMachine
namespace Relation

/-- The relation that holds where this one does not, in a total order. -/
def negation : Relation → Relation
  | eq => ne
  | ne => eq
  | lt => ge
  | le => gt
  | gt => le
  | ge => lt

def converse : Relation → Relation
  | eq => eq
  | ne => ne
  | lt => gt
  | le => ge
  | gt => lt
  | ge => le

def OnIntegers : Relation → Int → Int → Prop
  | eq, m, n => m = n
  | ne, m, n => m ≠ n
  | lt, m, n => m < n
  | le, m, n => m ≤ n
  | gt, m, n => n < m
  | ge, m, n => n ≤ m

@[simp] theorem onIntegers_negation (r : Relation) (m n : Int) :
    r.negation.OnIntegers m n ↔ ¬r.OnIntegers m n := by
  cases r <;> simp only [negation, OnIntegers] <;> omega

/-- Of any two integers, one is less than the other or they are equal, and never two of these. -/
theorem existsUnique_onIntegers (m n : Int) :
    ∃! r, r ∈ [lt, eq, gt] ∧ r.OnIntegers m n := by
  rcases Int.lt_trichotomy m n with hlt | heq | hgt
  · refine ⟨lt, ⟨by simp, hlt⟩, ?_⟩
    simp [OnIntegers]
    omega
  · refine ⟨eq, ⟨by simp, heq⟩, ?_⟩
    simp [OnIntegers]
    omega
  · refine ⟨gt, ⟨by simp, hgt⟩, ?_⟩
    simp [OnIntegers]
    omega

theorem onInts_iff (r : Relation) (x y : Int64) :
    r.onInts x y = true ↔ r.OnIntegers x.toInt y.toInt := by
  cases r <;>
    simp [onInts, OnIntegers, Int64.lt_iff_toInt_lt, Int64.le_iff_toInt_le, Int64.toInt_inj]

@[simp] theorem onInts_negation (r : Relation) (x y : Int64) :
    r.negation.onInts x y = !r.onInts x y := by
  rw [Bool.eq_iff_iff, Bool.not_eq_true', ← Bool.not_eq_true, onInts_iff, onInts_iff,
    onIntegers_negation]

@[simp] theorem holds_converse (r : Relation) (k : Kind) (x y : k.Word) :
    r.converse.holds k y x = r.holds k x y := by
  cases k with
  | int =>
    cases r with
    | eq => exact Bool.beq_comm
    | ne => exact bne_comm
    | _ => rfl
  | float =>
    cases r with
    | eq => exact Number.float_beq_comm y x
    | ne => exact congrArg Bool.not (Number.float_beq_comm y x)
    | _ => rfl

end Relation

/-- A register was given one or zero, as `flag` says, and nothing else has changed. -/
structure Context.Flagged (before after : Context) (target : String) (flag : Bool) : Prop where
  stored : after.registers.read? .int target = some (if flag then 1 else 0)
  others : ∀ k name, ¬(k = .int ∧ name = target) →
    after.registers.read? k name = before.registers.read? k name
  halting : after.halting = before.halting

namespace Context.Flagged

theorem write {context : Context} {target : String}
    (present : context.registers.contains .int target = true) (flag : Bool) :
    context.Flagged { context with
      registers := context.registers.write target (.int (if flag then 1 else 0)) } target flag := by
  refine ⟨Bank.read?_write_self present _, fun k name h => ?_, rfl⟩
  rw [Bank.read?_write, if_neg]
  exact fun e => h ⟨e.2, e.1⟩

theorem unique {before after : Context} {target : String} {flag flag' : Bool}
    (h : before.Flagged after target flag) (h' : before.Flagged after target flag') :
    flag = flag' := by
  have hword : (if flag then 1 else 0 : Int64) = if flag' then 1 else 0 :=
    Option.some.inj (h.stored.symm.trans h'.stored)
  cases flag <;> cases flag' <;> simp_all

end Context.Flagged

namespace Builtin

/-- The comparison succeeds, writes one or zero into its destination as `flag` says, and changes
nothing else. -/
def Flags (k : Kind) (r : Relation) (context : Context) (target left right : String)
    (flag : Bool) : Prop :=
  ∃ after, (compare k r).run [target, left, right] context = .ok () after ∧
    context.Flagged after target flag

section Denoted

variable {k : Kind} {context : Context} {target left right : String} {x y : k.Word}

/-- Where the destination is there and the operands denote words, these decide what is written. -/
theorem run_compare_of_denoted (present : context.registers.contains .int target = true)
    (hx : context.registers.Denotes k left x) (hy : context.registers.Denotes k right y)
    (r : Relation) :
    (compare k r).run [target, left, right] context = .ok () { context with
      registers := context.registers.write target (.int (if r.holds k x y then 1 else 0)) } := by
  obtain ⟨seed, hseed⟩ := Option.isSome_iff_exists.mp
    ((Bank.contains_eq_isSome _ _ _).symm.trans present)
  have hplan : (compare k r).plan [target, left, right] context.registers =
      .ok (.store target (.int (if r.holds k x y then 1 else 0))) := by
    show planCompare k r context.registers target left right = _
    rw [planCompare, Bank.destination_eq_ok_iff.mpr hseed, hx.resolve, hy.resolve]
    rfl
  rw [run_eq_plan, hplan]
  rfl

theorem flags_iff (present : context.registers.contains .int target = true)
    (hx : context.registers.Denotes k left x) (hy : context.registers.Denotes k right y)
    (r : Relation) (flag : Bool) :
    Flags k r context target left right flag ↔ flag = r.holds k x y := by
  have hrun := run_compare_of_denoted present hx hy r
  have hflagged := Context.Flagged.write present (r.holds k x y)
  constructor
  · intro h
    obtain ⟨after, hafter, hflag⟩ := h
    cases hrun.symm.trans hafter
    exact hflag.unique hflagged
  · intro h
    subst h
    exact ⟨_, hrun, hflagged⟩

/-- A comparison is its converse with the operands exchanged. -/
theorem run_compare_converse (present : context.registers.contains .int target = true)
    (hx : context.registers.Denotes k left x) (hy : context.registers.Denotes k right y)
    (r : Relation) :
    (compare k r).run [target, left, right] context =
      (compare k r.converse).run [target, right, left] context := by
  rw [run_compare_of_denoted present hx hy, run_compare_of_denoted present hy hx,
    Relation.holds_converse]

end Denoted

/-- The comparisons of integers write one or zero, as the integers compare, and change nothing else,
also where the destination is an operand.  A relation and its negation write opposite flags, exactly
one of less, equal and greater writes one, and a relation does the same as its converse with the
operands exchanged.  Of floating-point numbers, undefined ones included, equal and unequal write
opposite flags, and a relation does the same as its converse with the operands exchanged. -/
theorem run_compare_coherent (context : Context) (target left right : String)
    (present : context.registers.contains .int target = true) :
    let run (k : Kind) (r : Relation) (a b : String) := (compare k r).run [target, a, b] context
    let flags (k : Kind) (r : Relation) := Flags k r context target left right
    (∀ x y : Int64, context.registers.Denotes .int left x →
      context.registers.Denotes .int right y →
      (∀ r, ∃ flag, flags .int r flag ∧ (flag = true ↔ r.OnIntegers x.toInt y.toInt)) ∧
      (∀ r flag, flags .int r flag ↔ flags .int r.negation !flag) ∧
      (∃! r, r ∈ [Relation.lt, .eq, .gt] ∧ flags .int r true) ∧
      ∀ r, run .int r left right = run .int r.converse right left) ∧
    ∀ x y : Float, context.registers.Denotes .float left x →
      context.registers.Denotes .float right y →
      (∀ r, flags .float r (r.onFloats x y)) ∧
      (∀ flag, flags .float .eq flag ↔ flags .float .ne !flag) ∧
      ∀ r, run .float r left right = run .float r.converse right left := by
  intro run flags
  refine ⟨fun x y hx hy => ⟨fun r => ?_, fun r flag => ?_, ?_, ?_⟩,
    fun x y hx hy => ⟨fun r => ?_, fun flag => ?_, ?_⟩⟩
  · exact ⟨r.onInts x y, (flags_iff present hx hy r _).mpr rfl, r.onInts_iff x y⟩
  · have hneg : r.negation.holds .int x y = !r.holds .int x y := r.onInts_negation x y
    simp only [flags, flags_iff present hx hy, hneg, Bool.not_inj_iff]
  · obtain ⟨r, ⟨hmem, hr⟩, hunique⟩ := Relation.existsUnique_onIntegers x.toInt y.toInt
    refine ⟨r, ⟨hmem, ?_⟩, fun s hs => hunique s ⟨hs.1, ?_⟩⟩
    · exact (flags_iff present hx hy r true).mpr ((r.onInts_iff x y).mpr hr).symm
    · exact (s.onInts_iff x y).mp ((flags_iff present hx hy s true).mp hs.2).symm
  · exact run_compare_converse present hx hy
  · exact (flags_iff present hx hy r _).mpr rfl
  · have hne : Relation.ne.holds .float x y = !Relation.eq.holds .float x y := rfl
    simp only [flags, flags_iff present hx hy, hne, Bool.not_inj_iff]
  · exact run_compare_converse present hx hy

/-- The destination is both operands of the first comparison, and an undefined number is both
operands of the second. -/
theorem run_compare_coherent_aliased :
    let b := Bank.ofPoints [("d", .int 5), ("f", .float (0 / 0))]
    let context : Context := { registers := b }
    b.contains .int "d" = true ∧ b.Denotes .int "d" (5 : Int64) ∧
      b.Denotes .float "f" (0 / 0 : Float) ∧
      Flags .int .le context "d" "d" "d" true ∧ Flags .int .gt context "d" "d" "d" false ∧
      Flags .float .eq context "d" "f" "f" false ∧ Flags .float .ne context "d" "f" "f" true := by
  intro b context
  have present : b.contains .int "d" = true := by decide +kernel
  have hd : b.Denotes .int "d" (5 : Int64) := .register (by decide +kernel)
  have hf : b.Denotes .float "f" (0 / 0 : Float) := .register (by decide +kernel)
  obtain ⟨hmeaning, hneg, -, -⟩ := (run_compare_coherent context "d" "d" "d" present).1 5 5 hd hd
  obtain ⟨hfloat, hopposite, -⟩ :=
    (run_compare_coherent context "d" "f" "f" present).2 (0 / 0) (0 / 0) hf hf
  have hle : Flags .int .le context "d" "d" "d" true := by
    obtain ⟨flag, hflag, hiff⟩ := hmeaning .le
    rwa [hiff.mpr (Int.le_refl _)] at hflag
  have heq : Flags .float .eq context "d" "f" "f" false := hfloat .eq
  exact ⟨present, hd, hf, hle, (hneg .le true).mp hle, heq, (hopposite false).mp heq⟩

end Builtin
end RegisterMachine
