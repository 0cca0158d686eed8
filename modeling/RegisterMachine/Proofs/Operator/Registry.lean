import Mathlib.Data.List.Pairwise
import RegisterMachine.Proofs.Builtin.Opcode
import RegisterMachine.Proofs.Intake
import RegisterMachine.Proofs.Text.ByteOrder

/-!
# Building a registry

A registry is built by calls, each of which registers one operator of a host or all built-in ones.
Only the operators count, in the order in which the calls bring them: they are entered under their
opcodes, and what the intake says of items and keys holds of them.  In particular a built-in operator
and one of a host never stand for each other, since of two operators with one opcode the second is
refused, whichever it is.
-/

namespace RegisterMachine

inductive Registration where
  /-- All built-in operators, in the order of their table. -/
  | builtins
  | host (op : Operator)

def Registration.operators : Registration → List Operator
  | builtins => Builtin.operators
  | host op => [op]

def Registration.Apart (c c' : Registration) : Prop :=
  ∀ op ∈ c.operators, ∀ op' ∈ c'.operators, op.opcode ≠ op'.opcode

instance : Std.Symm Registration.Apart where
  symm _ _ h op hop op' hop' := (h op' hop' op hop).symm

def Operator.WellPriced (op : Operator) : Prop :=
  op.cost.isFinite = true ∧ ¬op.cost < 0

namespace Registry

theorem isCost_iff {op : Operator} : isCost op.cost = true ↔ op.WellPriced := by
  unfold isCost Operator.WellPriced
  rw [Bool.and_eq_true, Bool.not_eq_true', decide_eq_false_iff_not]

/-- The operators are registered under their opcodes and nothing else is. -/
structure Lists (r : Registry) (ops : List Operator) : Prop where
  get?_iff : ∀ opcode op, r.get? opcode = some op ↔ op ∈ ops ∧ op.opcode = opcode
  get?_eq_none : ∀ opcode, r.get? opcode = none ↔ opcode ∉ ops.map Operator.opcode
  contains : ∀ opcode, r.contains opcode = true ↔ opcode ∈ ops.map Operator.opcode
  size : r.size = ops.length
  isEmpty : r.isEmpty = ops.isEmpty
  mem_opcodes : ∀ opcode, opcode ∈ r.opcodes ↔ opcode ∈ ops.map Operator.opcode
  opcodes_sorted : r.opcodes.Pairwise fun a b => Text.bytes a < Text.bytes b

theorem contains_iff_get? {r : Registry} {opcode : String} :
    r.contains opcode = true ↔ r.get? opcode ≠ none := by
  rw [contains, Std.ExtTreeMap.contains_eq_isSome_getElem?, Option.ne_none_iff_isSome]
  rfl

def intake : Intake Registry Operator where
  key := Operator.opcode
  valid op := isCost op.cost
  invalid := .invalidCost
  taken := .duplicateOpcode
  start := {}
  enter := register
  find? := get?
  find?_start _ := rfl
  enter_invalid r op hc := by
    rw [register, hc]
    rfl
  enter_taken r op hc hf := by
    rw [register, hc, contains_iff_get?.mpr hf]
    rfl
  enter_free r op hc hf := by
    have hk : r.contains op.opcode = false :=
      Bool.eq_false_iff.mpr fun hk => contains_iff_get?.mp hk hf
    refine ⟨⟨r.operators.insert op.opcode op⟩, ?_, fun opcode => ?_⟩
    · rw [register, hc, hk]
      rfl
    · rw [get?, Std.ExtTreeMap.getElem?_insert]
      by_cases he : opcode = op.opcode
      · rw [if_pos he, if_pos (Std.compare_eq_iff_eq.mpr he.symm)]
      · rw [if_neg he, if_neg fun e => he (Std.compare_eq_iff_eq.mp e).symm]
        rfl
  eq_of_find? r r' h := by
    have htables : r.operators = r'.operators := Std.ExtTreeMap.ext_getElem? h
    cases r
    cases r'
    exact congrArg mk htables

variable {r : Registry} {ops : List Operator}

theorem mem_opcodes_iff_contains {opcode : String} :
    opcode ∈ r.opcodes ↔ r.contains opcode = true := by
  rw [opcodes, Std.ExtTreeMap.mem_keys, contains, Std.ExtTreeMap.contains_iff_mem]

/-- What a registry finds decides what its other observers say. -/
theorem lists_of_holds (hops : intake.Proper ops) (h : intake.Holds r ops) : r.Lists ops := by
  have hcontains (opcode : String) :
      r.contains opcode = true ↔ opcode ∈ ops.map Operator.opcode := by
    rw [contains_iff_get?, ne_eq, ← Classical.not_not (a := opcode ∈ _)]
    exact not_congr h.find?_eq_none
  have hmem (opcode : String) : opcode ∈ r.opcodes ↔ opcode ∈ ops.map Operator.opcode := by
    rw [mem_opcodes_iff_contains, hcontains]
  have hperm : r.opcodes.Perm (ops.map Operator.opcode) :=
    (List.perm_ext_iff_of_nodup Std.ExtTreeMap.nodup_keys hops.nodup).mpr hmem
  have hsize : r.size = ops.length := by
    rw [← List.length_map Operator.opcode, ← hperm.length_eq, opcodes, Std.ExtTreeMap.length_keys]
    rfl
  refine ⟨h.find?_iff, fun _ => h.find?_eq_none, hcontains, hsize, ?_, hmem, ?_⟩
  · rw [isEmpty, Std.ExtTreeMap.isEmpty_eq_size_beq_zero]
    show (r.size == 0) = _
    rw [hsize]
    cases ops <;> rfl
  · refine Std.ExtTreeMap.ordered_keys.imp fun {a b} hlt => Text.bytes_lt ?_
    exact compareOfLessAndEq_eq_lt.mp hlt

/-- Why an operator is refused behind others. -/
theorem intake_refuses_iff {before : List Operator} {op : Operator} {cause : Cause} :
    intake.Refuses before op cause ↔
      ¬op.WellPriced ∧ cause = .invalidCost op.opcode ∨
      op.WellPriced ∧ op.opcode ∈ before.map Operator.opcode ∧
        cause = .duplicateOpcode op.opcode := by
  rw [← isCost_iff, Bool.not_eq_true]
  exact Intake.refuses_iff

theorem proper_iff :
    intake.Proper ops ↔ (∀ op ∈ ops, op.WellPriced) ∧ (ops.map Operator.opcode).Nodup := by
  constructor
  · intro h
    exact ⟨fun op hop => isCost_iff.mp (h.valid op hop), h.nodup⟩
  · rintro ⟨hcost, hnodup⟩
    exact ⟨fun op hop => isCost_iff.mpr (hcost op hop), hnodup⟩

/-! ## The registry of the built-in operators -/

theorem proper_builtins : intake.Proper Builtin.operators := by
  have hcosts : Builtin.operators.all (fun op => isCost op.cost) = true := by decide +kernel
  refine ⟨List.all_eq_true.mp hcosts, ?_⟩
  show (Builtin.operators.map Operator.opcode).Nodup
  rw [Builtin.operators, List.map_map]
  exact Builtin.nodup_opcodes

theorem holds_builtins : intake.Holds builtins Builtin.operators := by
  refine ⟨fun opcode op => ?_⟩
  show builtins.get? opcode = some op ↔ op ∈ Builtin.operators ∧ op.opcode = opcode
  rw [get?_builtins, Option.map_eq_some_iff, Builtin.operators, List.mem_map]
  constructor
  · intro h
    obtain ⟨i, hi, rfl⟩ := h
    exact ⟨⟨i, i.mem_all, rfl⟩, Builtin.opcode_of_ofOpcode? hi⟩
  · intro h
    obtain ⟨⟨i, -, rfl⟩, rfl⟩ := h
    exact ⟨i, i.ofOpcode?_opcode, rfl⟩

/-- The registration of the built-in operators makes their registry. -/
theorem ofList_builtins : ofList Builtin.operators = .ok builtins :=
  holds_builtins.enterAll proper_builtins (.refl _)

/-! ## Registrations -/

theorem lists_of_ofList (h : ofList ops = .ok r) : r.Lists ops := by
  obtain ⟨hproper, hholds⟩ := Intake.proper_of_enterAll (I := intake) h
  exact lists_of_holds hproper hholds

theorem ofList_eq_error_iff {cause : Cause} :
    ofList ops = .error cause ↔ ∃ before op after, ops = before ++ op :: after ∧
      (∀ earlier ∈ before, earlier.WellPriced) ∧ (before.map Operator.opcode).Nodup ∧
      (¬op.WellPriced ∧ cause = .invalidCost op.opcode ∨
        op.WellPriced ∧ op.opcode ∈ before.map Operator.opcode ∧
          cause = .duplicateOpcode op.opcode) := by
  refine (Intake.enterAll_eq_error_iff (I := intake)).trans ?_
  simp only [proper_iff, intake_refuses_iff, and_assoc]

theorem apart_of_nodup {calls : List Registration}
    (h : ((calls.flatMap Registration.operators).map Operator.opcode).Nodup) {c c' : Registration}
    (hc : c ∈ calls) (hc' : c' ∈ calls) (hne : c ≠ c') : c.Apart c' := by
  have hpairs : calls.Pairwise Registration.Apart :=
    (List.pairwise_flatMap.mp (List.pairwise_map.mp h)).2
  exact hpairs.forall hc hc' hne

/-- The built-in operators are found as they are, before and after operators of a host. -/
theorem get?_builtin {calls : List Registration}
    (h : ofList (calls.flatMap Registration.operators) = .ok r) (hb : .builtins ∈ calls)
    (i : Builtin) : r.get? i.opcode = some i.operator := by
  have hmem : i.operator ∈ calls.flatMap Registration.operators :=
    List.mem_flatMap.mpr ⟨.builtins, hb, List.mem_map_of_mem i.mem_all⟩
  exact ((lists_of_ofList h).get?_iff _ _).mpr ⟨hmem, rfl⟩

/-- Registrations succeed exactly if every operator is well priced and no two have one opcode.  The
registry then lists the operators and nothing else, in any order of them, and the built-in ones
among them are as they were.  Otherwise the cause is that of the first operator whose cost is refused
or whose opcode is taken, and nothing that follows changes it. -/
theorem ofList_exact (calls : List Registration) :
    let ops := calls.flatMap Registration.operators
    ((∃ r, ofList ops = .ok r) ↔
      (∀ op ∈ ops, op.WellPriced) ∧ (ops.map Operator.opcode).Nodup) ∧
    (∀ r, ofList ops = .ok r →
      r.Lists ops ∧ (∀ ops' : List Operator, ops'.Perm ops → ofList ops' = .ok r) ∧
      (.builtins ∈ calls → ∀ i : Builtin, r.get? i.opcode = some i.operator ∧
        ∀ op, .host op ∈ calls → op.opcode ≠ i.opcode)) ∧
    ∀ cause,
      (ofList ops = .error cause ↔ ∃ before op after, ops = before ++ op :: after ∧
        (∀ earlier ∈ before, earlier.WellPriced) ∧ (before.map Operator.opcode).Nodup ∧
        (¬op.WellPriced ∧ cause = .invalidCost op.opcode ∨
          op.WellPriced ∧ op.opcode ∈ before.map Operator.opcode ∧
            cause = .duplicateOpcode op.opcode)) ∧
      (ofList ops = .error cause → ∀ more, ofList (ops ++ more) = .error cause) := by
  intro ops
  refine ⟨(Intake.enterAll_eq_ok_iff (I := intake)).trans proper_iff, ?_, ?_⟩
  · intro r h
    refine ⟨lists_of_ofList h, fun ops' hp => Intake.enterAll_perm (I := intake) h hp, ?_⟩
    intro hb i
    refine ⟨get?_builtin h hb i, fun op hop => ?_⟩
    have hproper := (Intake.proper_of_enterAll (I := intake) h).1
    have hapart := apart_of_nodup hproper.nodup hop hb fun e => nomatch e
    exact hapart op (.head _) i.operator (List.mem_map_of_mem i.mem_all)
  · intro cause
    exact ⟨ofList_eq_error_iff, Intake.enterAll_append_of_error (I := intake)⟩

/-- An operator of a host beside the built-in ones, and one that would take the place of a built-in
one, with a cost that is refused before its opcode is. -/
theorem ofList_exact_beside_builtins :
    let host : Operator := ⟨"DOUBLE", .exactly 1, 2.5, .extension, fun _ => pure ()⟩
    let other : Operator := { host with opcode := "ADD", cost := 0 / 0 }
    (∃ r, ofList (Registration.operators (.host host) ++ Builtin.operators) = .ok r ∧ r.size = 41 ∧
      r.get? "DOUBLE" = some host ∧ r.get? "ADD" = some (Builtin.operator (.fold (.int .add)))) ∧
    ofList (Builtin.operators ++ [other]) = .error (.invalidCost "ADD") := by
  intro host other
  let calls : List Registration := [.host host, .builtins]
  have hpriced : ∀ op ∈ calls.flatMap Registration.operators, op.WellPriced := by
    have hall : (calls.flatMap Registration.operators).all (fun op => isCost op.cost) = true := by
      decide +kernel
    exact fun op hop => isCost_iff.mp (List.all_eq_true.mp hall op hop)
  have hnodup : ((calls.flatMap Registration.operators).map Operator.opcode).Nodup := by
    decide +kernel
  obtain ⟨hok, hlists, -⟩ := ofList_exact calls
  obtain ⟨r, hr⟩ := hok.mpr ⟨hpriced, hnodup⟩
  obtain ⟨hl, -, hbuiltin⟩ := hlists r hr
  refine ⟨⟨r, hr, hl.size, ?_, ?_⟩, ?_⟩
  · exact (hl.get?_iff _ _).mpr ⟨.head _, rfl⟩
  · exact (hbuiltin (.tail _ (.head _)) (.fold (.int .add))).1
  · refine (((ofList_exact [.builtins, .host other]).2.2 _).1).mpr ?_
    refine ⟨Builtin.operators, other, [], rfl, ?_, ?_, .inl ⟨?_, rfl⟩⟩
    · exact fun op hop =>
        hpriced op (List.mem_flatMap.mpr ⟨.builtins, .tail _ (.head _), hop⟩)
    · exact (List.nodup_cons.mp hnodup).2
    · rw [← isCost_iff]
      decide +kernel

end Registry
end RegisterMachine
