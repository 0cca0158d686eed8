import Mathlib.Data.List.Nodup
import RegisterMachine.Proofs.Bank.FiniteMap
import RegisterMachine.Proofs.Intake

/-!
# Declaring registers in order

Registers with valid and different names are all declared, and the bank then holds each value under
its name and nothing else, whatever the order.  Otherwise the first register with a name that is not
valid or is there already is refused.  Both are cases of entering items under keys; the key is the
name alone, so that the two kinds share their names.  The points of a bank have valid and different
names, so declaring them makes the bank again.
-/

namespace RegisterMachine
namespace Bank

/-- A bank is determined by its lookups. -/
theorem eq_of_lookup? {b b' : Bank} (h : ∀ name, b.lookup? name = b'.lookup? name) : b = b' := by
  refine eq_of_read? fun k name => ?_
  rw [read?_eq_lookup?, read?_eq_lookup?, h]

def intake : Intake Bank (String × Value) where
  key := Prod.fst
  valid r := isRegisterName r.1
  invalid := .invalidRegisterName
  taken := .duplicateRegister
  start := empty
  enter b r := b.declare r.1 r.2
  find? b name := (b.lookup? name).map fun v => (name, v)
  find?_start _ := rfl
  enter_invalid b r hn := by
    rw [declare, dif_neg (Bool.eq_false_iff.mp hn)]
  enter_taken b r hn hf := by
    have hk : b.kindOf? r.1 ≠ none := by
      rw [kindOf?_eq_lookup?]
      exact fun hnone => hf (Option.map_eq_none_iff.mpr (Option.map_eq_none_iff.mp hnone))
    rw [declare, dif_pos hn, dif_neg hk]
  enter_free b r hn hf := by
    have hk : b.kindOf? r.1 = none := by
      rw [kindOf?_eq_lookup?, Option.map_eq_none_iff.mp hf, Option.map_none]
    refine ⟨b.insert r.1 r.2 hn hk, ?_, fun name => ?_⟩
    · rw [declare, dif_pos hn, dif_pos hk]
    · by_cases he : name = r.1
      · simp [he]
      · simp [he]
  eq_of_find? b b' h := by
    refine eq_of_lookup? fun name => ?_
    have hinj : Function.Injective fun v : Value => (name, v) := fun v w hvw => (Prod.mk.inj hvw).2
    exact Option.map_injective hinj (h name)

theorem provision_eq_enterAll (rs : List (String × Value)) : provision rs = intake.enterAll rs :=
  rfl

theorem lookup?_of_holds {b : Bank} {rs : List (String × Value)} (h : intake.Holds b rs)
    {name : String} {v : Value} : b.lookup? name = some v ↔ (name, v) ∈ rs := by
  have hfind := h.find?_iff name (name, v)
  constructor
  · intro hl
    refine (hfind.mp ?_).1
    show (b.lookup? name).map _ = _
    rw [hl, Option.map_some]
  · intro hr
    obtain ⟨w, hw, hwv⟩ := Option.map_eq_some_iff.mp (hfind.mpr ⟨hr, rfl⟩)
    rw [hw, (Prod.mk.inj hwv).2]

theorem lookup?_of_provision {b : Bank} {rs : List (String × Value)} (h : provision rs = .ok b)
    {name : String} {v : Value} : b.lookup? name = some v ↔ (name, v) ∈ rs :=
  lookup?_of_holds (Intake.proper_of_enterAll (I := intake) h).2

theorem mem_of_kindOf?_ofPoints {rs : List (String × Value)} {name : String} {k : Kind}
    (h : (ofPoints rs).kindOf? name = some k) : name ∈ rs.map Prod.fst := by
  unfold ofPoints at h
  cases hb : provision rs with
  | error cause => rw [hb] at h; cases h
  | ok b =>
    rw [hb, kindOf?_eq_lookup?] at h
    obtain ⟨v, hv, -⟩ := Option.map_eq_some_iff.mp h
    exact List.mem_map_of_mem ((lookup?_of_provision hb).mp hv)

theorem Represents.valid_of_mem_points {b : Bank} {entries : Table Value}
    (h : b.Represents entries) {p : String × Value} (hp : p ∈ b.points) :
    isRegisterName p.1 = true := by
  refine h.valid p.2.kind p.1 ?_
  rw [h.contains, (h.mem_points p.1 p.2).mp hp, Option.map_some]

theorem Represents.lookup?_iff_mem_points {b : Bank} {entries : Table Value}
    (h : b.Represents entries) {name : String} {v : Value} :
    b.lookup? name = some v ↔ (name, v) ∈ b.points := by
  rw [h.lookup?, h.mem_points]

theorem Represents.nodup_points {b : Bank} {entries : Table Value} (h : b.Represents entries) :
    (b.points.map Prod.fst).Nodup := by
  refine List.pairwise_map.mpr (h.points_sorted.imp fun {p q} hlt he => ?_)
  rw [he] at hlt
  exact List.lt_irrefl _ hlt

/-- Declaring the points of a bank makes the bank. -/
theorem provision_points {b : Bank} {entries : Table Value} (h : b.Represents entries) :
    provision b.points = .ok b := by
  have hproper : intake.Proper b.points := ⟨fun _ hp => h.valid_of_mem_points hp, h.nodup_points⟩
  obtain ⟨b', hok, hholds⟩ := hproper.enterAll
  have heq : b' = b := by
    refine eq_of_lookup? fun name => Option.ext fun v => ?_
    rw [lookup?_of_holds hholds, h.lookup?_iff_mem_points]
  rw [provision_eq_enterAll, hok, heq]

theorem exists_represents_of_provision {b : Bank} {rs : List (String × Value)}
    (h : provision rs = .ok b) : ∃ entries, b.Represents entries := by
  rw [edits_of_provision h]
  exact ⟨_, represents_empty.edits _⟩

theorem points_perm_of_holds {b : Bank} {entries : Table Value} {rs : List (String × Value)}
    (hb : b.Represents entries) (hrs : intake.Proper rs) (h : intake.Holds b rs) :
    b.points.Perm rs := by
  rw [List.perm_ext_iff_of_nodup (List.Nodup.of_map _ hb.nodup_points)
    (List.Nodup.of_map _ hrs.nodup)]
  rintro ⟨name, v⟩
  rw [← hb.lookup?_iff_mem_points, lookup?_of_holds h]

theorem get?_of_holds {b : Bank} {rs : List (String × Value)} (h : intake.Holds b rs) (k : Kind)
    (name : String) (v : Value) : b.get? k name = some v ↔ (name, v) ∈ rs ∧ v.kind = k := by
  rw [get?_eq_lookup?, Option.filter_eq_some_iff, lookup?_of_holds h, decide_eq_true_eq]

/-- Why a register is refused behind others. -/
theorem intake_refuses_iff {before : List (String × Value)} {r : String × Value} {cause : Cause} :
    intake.Refuses before r cause ↔
      isRegisterName r.1 = false ∧ cause = .invalidRegisterName r.1 ∨
      isRegisterName r.1 = true ∧ r.1 ∈ before.map Prod.fst ∧ cause = .duplicateRegister r.1 :=
  Intake.refuses_iff

/-- Registers are provisioned exactly if all names are valid and no two are the same, whatever the
kinds.  The bank then holds these registers and nothing else, in any order of the declarations.
Otherwise the cause is that of the first register whose name is not valid or repeats an earlier
one. -/
theorem provision_exact (rs : List (String × Value)) :
    ((∃ b, provision rs = .ok b) ↔
      (∀ r ∈ rs, isRegisterName r.1 = true) ∧ (rs.map Prod.fst).Nodup) ∧
    (∀ b, provision rs = .ok b →
      b.points.Perm rs ∧ b.size = rs.length ∧
      (∀ name v, b.lookup? name = some v ↔ (name, v) ∈ rs) ∧
      (∀ k name v, b.get? k name = some v ↔ (name, v) ∈ rs ∧ v.kind = k) ∧
      ∀ rs' : List (String × Value), rs'.Perm rs → provision rs' = .ok b) ∧
    ∀ cause, provision rs = .error cause ↔
      ∃ before r after, rs = before ++ r :: after ∧
        (∀ q ∈ before, isRegisterName q.1 = true) ∧ (before.map Prod.fst).Nodup ∧
        (isRegisterName r.1 = false ∧ cause = .invalidRegisterName r.1 ∨
          isRegisterName r.1 = true ∧ r.1 ∈ before.map Prod.fst ∧
            cause = .duplicateRegister r.1) := by
  refine ⟨?_, ?_, ?_⟩
  · rw [provision_eq_enterAll, Intake.enterAll_eq_ok_iff]
    exact ⟨fun h => ⟨h.valid, h.nodup⟩, fun h => ⟨h.1, h.2⟩⟩
  · intro b hb
    obtain ⟨entries, hrep⟩ := exists_represents_of_provision hb
    obtain ⟨hproper, hholds⟩ := Intake.proper_of_enterAll (I := intake) hb
    have hpoints := points_perm_of_holds hrep hproper hholds
    refine ⟨hpoints, ?_, fun name v => lookup?_of_holds hholds, get?_of_holds hholds, ?_⟩
    · rw [← hpoints.length_eq, length_points]
    · exact fun rs' hp => Intake.enterAll_perm (I := intake) hb hp
  · intro cause
    rw [provision_eq_enterAll, Intake.enterAll_eq_error_iff]
    simp only [intake_refuses_iff]
    constructor
    · rintro ⟨before, r, after, he, hb, hr⟩
      exact ⟨before, r, after, he, hb.valid, hb.nodup, hr⟩
    · rintro ⟨before, r, after, he, hv, hn, hr⟩
      exact ⟨before, r, after, he, ⟨hv, hn⟩, hr⟩

/-- Two registers in either order; behind them the name of the first one with the other kind, which
is refused although a name that is not valid follows. -/
theorem provision_exact_across_kinds :
    let rs : List (String × Value) := [("b", .float 1), ("a", .int 2)]
    let more : List (String × Value) := rs ++ [("b", .int 3), (".x", .int 4)]
    (∃ b, provision rs = .ok b ∧ b.points.Perm rs ∧ b.lookup? "a" = some (.int 2) ∧
      provision [("a", .int 2), ("b", .float 1)] = .ok b) ∧
    provision more = .error (.duplicateRegister "b") := by
  intro rs more
  have hvalid : ∀ r ∈ rs, isRegisterName r.1 = true := by
    simp only [rs, List.forall_mem_cons]
    exact ⟨rfl, rfl, by simp⟩
  have hnodup : (rs.map Prod.fst).Nodup := by decide
  obtain ⟨hok, hholds, -⟩ := provision_exact rs
  obtain ⟨b, hb⟩ := hok.mpr ⟨hvalid, hnodup⟩
  obtain ⟨hpoints, -, hlookup, -, hperm⟩ := hholds b hb
  refine ⟨⟨b, hb, hpoints, (hlookup _ _).mpr (by simp [rs]), ?_⟩, ?_⟩
  · exact hperm _ (.swap _ _ _)
  · refine ((provision_exact more).2.2 _).mpr ?_
    exact ⟨rs, ("b", .int 3), [(".x", .int 4)], rfl, hvalid, hnodup,
      .inr ⟨rfl, by decide, rfl⟩⟩

end Bank
end RegisterMachine
