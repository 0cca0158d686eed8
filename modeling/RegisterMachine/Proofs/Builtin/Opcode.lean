import Mathlib.Data.List.Nodup
import RegisterMachine.Builtin.Basic

/-!
# Opcodes of the built-in instructions

No two built-in instructions share an opcode, so the registry of the built-in instructions finds
exactly the instruction that an opcode names.
-/

namespace RegisterMachine
namespace Builtin

def ofOpcode? (opcode : String) : Option Builtin :=
  all.find? fun i => i.opcode == opcode

theorem opcode_of_ofOpcode? {opcode : String} {i : Builtin} (h : ofOpcode? opcode = some i) :
    i.opcode = opcode := by
  have hi := List.find?_some h
  exact eq_of_beq hi

theorem nodup_opcodes : (all.map opcode).Nodup := by
  decide +kernel

theorem mem_all (i : Builtin) : i ∈ all := by
  cases i with
  | fold op =>
    cases op with
    | int op => cases op <;> decide
    | float op => cases op <;> decide
  | compare k r => cases k <;> cases r <;> decide
  | transfer t =>
    cases t with
    | move k => cases k <;> decide
    | intToFloat => decide
    | floatToInt => decide
  | unary k op => cases k <;> cases op <;> decide
  | nop => decide
  | halt => decide

@[simp] theorem ofOpcode?_opcode (i : Builtin) : ofOpcode? i.opcode = some i := by
  have hfound : (ofOpcode? i.opcode).isSome = true :=
    List.find?_isSome.mpr ⟨i, i.mem_all, beq_self_eq_true i.opcode⟩
  obtain ⟨j, hj⟩ := Option.isSome_iff_exists.mp hfound
  have hopcode : j.opcode = i.opcode := opcode_of_ofOpcode? hj
  rw [hj, List.inj_on_of_nodup_map nodup_opcodes j.mem_all i.mem_all hopcode]

/-- The table from which the registry is made has each opcode once. -/
theorem pairwise_operators :
    (operators.map fun op => (op.opcode, op)).Pairwise fun a b => ¬Ord.compare a.1 b.1 = .eq := by
  rw [operators, List.map_map, List.pairwise_map]
  have h : all.Pairwise fun i j => i.opcode ≠ j.opcode := List.pairwise_map.mp nodup_opcodes
  refine h.imp fun {i j} hij e => hij ?_
  exact Std.compare_eq_iff_eq.mp e

end Builtin

namespace Registry

@[simp] theorem get?_builtins (opcode : String) :
    builtins.get? opcode = (Builtin.ofOpcode? opcode).map Builtin.operator := by
  unfold get? builtins
  cases h : Builtin.ofOpcode? opcode with
  | none =>
    apply Std.ExtTreeMap.getElem?_ofList_of_contains_eq_false
    rw [List.contains_eq_any_beq, List.any_eq_false]
    intro name hn
    simp only [Builtin.operators, List.map_map, List.mem_map, Function.comp] at hn
    obtain ⟨i, hi, rfl⟩ := hn
    have hne := List.find?_eq_none.mp h i hi
    rw [Bool.beq_comm]
    exact hne
  | some i =>
    have hi : i ∈ Builtin.all := List.mem_of_find?_eq_some h
    refine Std.ExtTreeMap.getElem?_ofList_of_mem (k := i.opcode) ?_ Builtin.pairwise_operators ?_
    · exact Std.compare_eq_iff_eq.mpr (Builtin.opcode_of_ofOpcode? h)
    · exact List.mem_map_of_mem (List.mem_map_of_mem hi)

end Registry
end RegisterMachine
