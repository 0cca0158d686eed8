import RegisterMachine.Proofs.Bank
import RegisterMachine.Proofs.Machine.History
import RegisterMachine.Proofs.Machine.StaticCheck
import RegisterMachine.Proofs.Text.ByteOrder

/-!
# A bank is one finite map

A bank keeps two tables, and each of its operations looks at them in its own way.  `Represents` says
that all of them answer from one finite map from names to values.  No name is in both tables, so
`lookup?` alone decides what every other observer says, and the points are the entries of the map in
their order.  `Entries.edit?` is what a declaration or
an assignment does to the map; the bank follows it step by step.
-/

namespace RegisterMachine

inductive Edit where
  | declare (name : String) (v : Value)
  | set (name : String) (v : Value)

namespace Entries

def declare? (entries : Table Value) (name : String) (v : Value) : Option (Table Value) :=
  if isRegisterName name = true ∧ name ∉ entries then some (entries.insert name v) else none

def set? (entries : Table Value) (name : String) (v : Value) : Option (Table Value) :=
  if entries[name]?.map Value.kind = some v.kind then some (entries.insert name v) else none

def edit? (entries : Table Value) : Edit → Option (Table Value)
  | .declare name v => declare? entries name v
  | .set name v => set? entries name v

def edits (entries : Table Value) (es : List Edit) : Table Value :=
  es.foldl (fun entries e => (edit? entries e).getD entries) entries

end Entries

namespace Bank

def edit (b : Bank) : Edit → Except Cause Bank
  | .declare name v => b.declare name v
  | .set name v => b.set name v

/-- The bank after edits, of which those that are refused change nothing. -/
def edits (b : Bank) (es : List Edit) : Bank :=
  es.foldl (fun b e => (b.edit e).toOption.getD b) b

/-! ## Observers -/

theorem kindOf?_eq_lookup? (b : Bank) (name : String) :
    b.kindOf? name = (b.lookup? name).map Value.kind := by
  unfold lookup? kindOf? get?
  rw [contains_eq_isSome, contains_eq_isSome]
  cases hi : b.read? .int name with
  | some w => simp [hi]
  | none =>
    cases hf : b.read? .float name with
    | some w => simp [hf]
    | none => rfl

theorem get?_eq_lookup? (b : Bank) (k : Kind) (name : String) :
    b.get? k name = (b.lookup? name).filter fun v => v.kind = k := by
  unfold get?
  rw [read?_eq_lookup?]
  cases b.lookup? name with
  | none => rfl
  | some v => cases v <;> cases k <;> rfl

theorem lookup?_eq_some_iff {b : Bank} {name : String} {v : Value} :
    b.lookup? name = some v ↔ b.get? v.kind name = some v := by
  rw [get?_eq_lookup?, Option.filter_eq_some_iff]
  simp

/-- The lookups of a bank in which `name` has been given the value `v`. -/
theorem lookup?_of_read? {b b' : Bank} {name : String} {v : Value}
    (hv : b'.read? v.kind name = v.word? v.kind)
    (ho : ∀ k other, other ≠ name → b'.read? k other = b.read? k other) (other : String) :
    b'.lookup? other = if other = name then some v else b.lookup? other := by
  by_cases hn : other = name
  · rw [if_pos hn, hn, lookup?_eq_some_iff, get?, hv]
    cases v <;> rfl
  · rw [if_neg hn, lookup?_eq_read?, lookup?_eq_read?, ho _ other hn, ho _ other hn]

theorem lookup?_write {b : Bank} {name : String} {v : Value}
    (h : b.contains v.kind name = true) (other : String) :
    (b.write name v).lookup? other = if other = name then some v else b.lookup? other := by
  refine lookup?_of_read? ?_ (fun k n hn => ?_) other
  · obtain ⟨old, hold⟩ := Option.isSome_iff_exists.mp ((b.contains_eq_isSome _ _).symm.trans h)
    simp [hold]
  · simp [hn]

@[simp] theorem lookup?_insert {b : Bank} {name : String} (v : Value)
    (valid : isRegisterName name = true)
    (new : b.kindOf? name = none) (other : String) :
    (b.insert name v valid new).lookup? other =
      if other = name then some v else b.lookup? other := by
  refine lookup?_of_read? ?_ (fun k n hn => ?_) other
  · simp
  · simp [hn]

@[simp] theorem mem_pointsOf {b : Bank} {k : Kind} {name : String} {v : Value} :
    (name, v) ∈ b.pointsOf k ↔ b.get? k name = some v := by
  unfold pointsOf get? read?
  rw [List.mem_map, Option.map_eq_some_iff]
  constructor
  · rintro ⟨⟨n, w⟩, hm, he⟩
    cases he
    exact ⟨w, Std.ExtTreeMap.mem_toList_iff_getElem?_eq_some.mp hm, rfl⟩
  · rintro ⟨w, hw, rfl⟩
    exact ⟨(name, w), Std.ExtTreeMap.mem_toList_iff_getElem?_eq_some.mpr hw, rfl⟩

theorem nodup_pointsOf (b : Bank) (k : Kind) : (b.pointsOf k).Nodup := by
  unfold pointsOf List.Nodup
  rw [List.pairwise_map]
  refine Std.ExtTreeMap.distinct_keys_toList.imp fun {p q} hpq he => hpq ?_
  rw [(Prod.mk.inj he).1]
  exact Std.compare_self

theorem kind_of_get? {b : Bank} {k : Kind} {name : String} {v : Value}
    (h : b.get? k name = some v) : v.kind = k := by
  obtain ⟨w, -, rfl⟩ := Option.map_eq_some_iff.mp h
  exact Value.kind_ofWord k w

variable {b : Bank} {entries : Table Value}

/-- The registers of both kinds together are the entries, in some order. -/
theorem pointsOf_perm_entries (hl : ∀ name, b.lookup? name = entries[name]?) :
    (b.pointsOf .int ++ b.pointsOf .float).Perm entries.toList := by
  have hnodup : (b.pointsOf .int ++ b.pointsOf .float).Nodup := by
    refine List.nodup_append.mpr ⟨nodup_pointsOf b .int, nodup_pointsOf b .float, ?_⟩
    rintro ⟨name, v⟩ hi ⟨name', v'⟩ hf he
    cases he
    have hki := kind_of_get? (mem_pointsOf.mp hi)
    have hkf := kind_of_get? (mem_pointsOf.mp hf)
    rw [hki] at hkf
    cases hkf
  have hnodup' : entries.toList.Nodup := by
    refine Std.ExtTreeMap.distinct_keys_toList.imp fun {p q} hpq he => hpq ?_
    rw [he]
    exact Std.compare_self
  rw [List.perm_ext_iff_of_nodup hnodup hnodup']
  rintro ⟨name, v⟩
  rw [List.mem_append, mem_pointsOf, mem_pointsOf, Std.ExtTreeMap.mem_toList_iff_getElem?_eq_some,
    ← hl, lookup?_eq_some_iff]
  constructor
  · rintro (h | h)
    · rw [kind_of_get? h]
      exact h
    · rw [kind_of_get? h]
      exact h
  · intro h
    cases hk : v.kind with
    | int => exact .inl (hk ▸ h)
    | float => exact .inr (hk ▸ h)

theorem points_eq_entries (hl : ∀ name, b.lookup? name = entries[name]?) :
    b.points = entries.toList := by
  have hperm : b.points.Perm entries.toList :=
    (List.mergeSort_perm _ _).trans (pointsOf_perm_entries hl)
  have hsorted : b.points.Pairwise fun p q => (compare p.1 q.1).isLE = true := by
    refine List.pairwise_mergeSort ?_ ?_ _
    · intro p q r hpq hqr
      exact Std.TransCmp.isLE_trans hpq hqr
    · intro p q
      have hswap : compare q.1 p.1 = (compare p.1 q.1).swap := Std.OrientedCmp.eq_swap
      rw [hswap]
      cases compare p.1 q.1 <;> rfl
  have hsorted' : entries.toList.Pairwise fun p q => (compare p.1 q.1).isLE = true := by
    refine Std.ExtTreeMap.ordered_keys_toList.imp fun {p q} h => ?_
    rw [h]
    rfl
  refine List.Perm.eq_of_pairwise ?_ hsorted hsorted' hperm
  -- Two entries that are not in order either way have one name, and so one value.
  rintro ⟨name, v⟩ ⟨name', v'⟩ hp hq hle hge
  have hn : name = name' := by
    apply Std.compare_eq_iff_eq.mp
    exact Std.OrientedCmp.isLE_antisymm hle hge
  subst hn
  have hv := Std.ExtTreeMap.mem_toList_iff_getElem?_eq_some.mp (hperm.mem_iff.mp hp)
  have hv' := Std.ExtTreeMap.mem_toList_iff_getElem?_eq_some.mp hq
  rw [hv] at hv'
  cases hv'
  rfl

/-! ## Refinement -/

/-- The bank keeps its two tables apart, and all its observers answer from the map. -/
structure Represents (b : Bank) (entries : Table Value) : Prop where
  disjoint : ∀ name, b.contains .int name = true → b.contains .float name = false
  valid : ∀ k name, b.contains k name = true → isRegisterName name = true
  lookup? : ∀ name, b.lookup? name = entries[name]?
  get? : ∀ k name, b.get? k name = entries[name]?.filter fun v => v.kind = k
  kindOf? : ∀ name, b.kindOf? name = entries[name]?.map Value.kind
  contains : ∀ k name, b.contains k name = true ↔ entries[name]?.map Value.kind = some k
  size : b.size = entries.size
  isEmpty : b.isEmpty = entries.isEmpty
  mem_points : ∀ name v, (name, v) ∈ b.points ↔ entries[name]? = some v
  points_sorted : b.points.Pairwise fun p q => Text.bytes p.1 < Text.bytes q.1
  points_length : b.points.length = b.size

@[simp] theorem length_points (b : Bank) : b.points.length = b.size := by
  unfold points size
  rw [(List.mergeSort_perm _ _).length_eq, List.length_append, pointsOf, pointsOf, List.length_map,
    List.length_map, Std.ExtTreeMap.length_toList, Std.ExtTreeMap.length_toList]
  rfl

theorem represents_of_lookup? (hl : ∀ name, b.lookup? name = entries[name]?) :
    b.Represents entries := by
  have hpoints := points_eq_entries hl
  have hsize : b.size = entries.size := by
    rw [← length_points, hpoints, Std.ExtTreeMap.length_toList]
  refine ⟨fun name => contains_other, fun k name => isRegisterName_of_contains, hl, ?_, ?_, ?_,
    hsize, ?_, ?_, ?_, length_points b⟩
  · intro k name
    rw [get?_eq_lookup?, hl]
  · intro name
    rw [kindOf?_eq_lookup?, hl]
  · intro k name
    rw [← kindOf?_eq_some_iff, kindOf?_eq_lookup?, hl]
  · rw [isEmpty, hsize, Std.ExtTreeMap.isEmpty_eq_size_beq_zero]
  · intro name v
    rw [hpoints, Std.ExtTreeMap.mem_toList_iff_getElem?_eq_some]
  · rw [hpoints]
    refine Std.ExtTreeMap.ordered_keys_toList.imp fun {p q} h => Text.bytes_lt ?_
    exact compareOfLessAndEq_eq_lt.mp h

theorem represents_empty : empty.Represents ∅ := by
  refine represents_of_lookup? fun name => ?_
  rw [lookup?_eq_read?]
  simp [read?, table, empty]

/-- The value that a name has been given becomes the entry of that name. -/
theorem Represents.insert (h : b.Represents entries) {b' : Bank} {name : String} {v : Value}
    (hl : ∀ other, b'.lookup? other = if other = name then some v else b.lookup? other) :
    b'.Represents (entries.insert name v) := by
  refine represents_of_lookup? fun other => ?_
  rw [hl, h.lookup?, Std.ExtTreeMap.getElem?_insert]
  by_cases he : other = name
  · rw [if_pos he, if_pos (Std.compare_eq_iff_eq.mpr he.symm)]
  · rw [if_neg he, if_neg fun e => he (Std.compare_eq_iff_eq.mp e).symm]

/-- The bank and the map both accept, and then the one represents the other, or both refuse. -/
inductive Accord : Except Cause Bank → Option (Table Value) → Prop
  | accepted {b : Bank} {entries : Table Value} (after : b.Represents entries) :
      Accord (.ok b) (some entries)
  | refused (cause : Cause) : Accord (.error cause) none

theorem Represents.declare (h : b.Represents entries) (name : String) (v : Value) :
    Accord (b.declare name v) (Entries.declare? entries name v) := by
  have hfree : b.kindOf? name = none ↔ name ∉ entries := by
    rw [h.kindOf?, Option.map_eq_none_iff, ← Option.not_isSome_iff_eq_none,
      ← Std.ExtTreeMap.mem_iff_isSome_getElem?]
  unfold Bank.declare Entries.declare?
  by_cases hn : isRegisterName name = true
  · by_cases hk : b.kindOf? name = none
    · rw [dif_pos hn, dif_pos hk, if_pos ⟨hn, hfree.mp hk⟩]
      exact .accepted (h.insert (lookup?_insert v hn hk))
    · rw [dif_pos hn, dif_neg hk, if_neg fun e => hk (hfree.mpr e.2)]
      exact .refused _
  · rw [dif_neg hn, if_neg fun e => hn e.1]
    exact .refused _

theorem Represents.set (h : b.Represents entries) (name : String) (v : Value) :
    Accord (b.set name v) (Entries.set? entries name v) := by
  unfold Bank.set Entries.set?
  by_cases hc : b.contains v.kind name = true
  · rw [if_pos hc, if_pos ((h.contains _ _).mp hc)]
    exact .accepted (h.insert (lookup?_write hc))
  · rw [if_neg hc, if_neg fun hm => hc ((h.contains _ _).mpr hm)]
    exact .refused _

theorem Represents.edit (h : b.Represents entries) (e : Edit) :
    Accord (b.edit e) (Entries.edit? entries e) := by
  cases e with
  | declare name v => exact h.declare name v
  | set name v => exact h.set name v

theorem Represents.edits (h : b.Represents entries) (es : List Edit) :
    (b.edits es).Represents (Entries.edits entries es) := by
  induction es generalizing b entries with
  | nil => exact h
  | cons e rest ih =>
    have hstep := h.edit e
    show (((b.edit e).toOption.getD b).edits rest).Represents
      (Entries.edits ((Entries.edit? entries e).getD entries) rest)
    generalize b.edit e = result, Entries.edit? entries e = result' at hstep ⊢
    cases hstep with
    | accepted after => exact ih after
    | refused cause => exact ih h

theorem edits_of_refused {e : Edit} {cause : Cause} (es : List Edit)
    (h : (b.edits es).edit e = .error cause) : b.edits (es ++ [e]) = b.edits es := by
  unfold edits at h ⊢
  rw [List.foldl_append, List.foldl_cons, List.foldl_nil, h]
  rfl

theorem edits_of_provision {registers : List (String × Value)} (h : provision registers = .ok b) :
    b = empty.edits (registers.map fun r => .declare r.1 r.2) := by
  have hall : ∀ start : Bank, registers.foldlM (fun b r => b.declare r.1 r.2) start = .ok b →
      b = start.edits (registers.map fun r => .declare r.1 r.2) := by
    clear h
    induction registers with
    | nil =>
      intro start h
      cases h
      rfl
    | cons r rest ih =>
      intro start h
      rw [List.foldlM_cons] at h
      cases hd : start.declare r.1 r.2 with
      | error cause => rw [hd] at h; cases h
      | ok next =>
        rw [hd] at h
        have hedit : start.edit (.declare r.1 r.2) = .ok next := hd
        rw [List.map_cons, edits, List.foldl_cons, hedit]
        exact ih next h
  exact hall empty h

end Bank

namespace Machine

theorem calls_naming {m : Machine} (hm : m.operators = .builtins) (cs : List Call) :
    (m.calls cs).registers.naming = m.registers.naming := by
  have h : (m.calls cs).operators = .builtins ∧
      (m.calls cs).registers.naming = m.registers.naming := by
    refine calls_invariant (P := fun n => n.operators = .builtins ∧
      n.registers.naming = m.registers.naming) ?_ ?_ ?_ ⟨hm, rfl⟩ cs
    · intro n i hn
      exact ⟨by simp [hn.1], (dispatch_naming hn.1 i).trans hn.2⟩
    · intro n name v _ hn
      refine ⟨hn.1, Eq.trans ?_ hn.2⟩
      funext other
      exact Bank.kindOf?_congr fun k => by simp
    · intro n hn
      exact hn
  exact h.2

end Machine

/-- A bank that is made by declarations and assignments, from the empty one on, is one finite map.
Its two tables share no name and hold valid names only, every observer answers from the map, and
the bank accepts an edit exactly when the map does; a refused edit changes nothing.  The bank of a
provisioned machine is made in this way, and no history of a machine with the built-in operators
changes the kind of a name. -/
theorem Bank.edits_refine_map :
    (∀ es : List Edit, let b := Bank.empty.edits es; let entries := Entries.edits ∅ es
      b.Represents entries ∧ (∀ e, Accord (b.edit e) (Entries.edit? entries e)) ∧
        ∀ e cause, b.edit e = .error cause → Bank.empty.edits (es ++ [e]) = b) ∧
    (∀ (registers : List (String × Value)) (operators : Registry) (limits : Limits) (m : Machine),
      Machine.provision registers operators limits = .ok m →
        m.registers = Bank.empty.edits (registers.map fun r => .declare r.1 r.2)) ∧
    ∀ (m : Machine) (cs : List Call), m.operators = .builtins →
      ∀ name, (m.calls cs).registers.kindOf? name = m.registers.kindOf? name := by
  refine ⟨?_, ?_, ?_⟩
  · intro es b entries
    have h : b.Represents entries := represents_empty.edits es
    exact ⟨h, h.edit, fun e cause he => edits_of_refused es he⟩
  · intro registers operators limits m h
    unfold Machine.provision at h
    cases hb : provision registers with
    | error cause => rw [hb] at h; cases h
    | ok b =>
      rw [hb] at h
      cases h
      exact edits_of_provision hb
  · intro m cs hm name
    exact congrFun (Machine.calls_naming hm cs) name

/-- A second declaration and an assignment of the other kind are refused, from outside as well. -/
theorem Bank.edits_refine_map_poked :
    let b := Bank.empty.edits [.declare "a" (.int 1), .declare "a" (.float 2), .set "a" (.float 3)]
    let m : Machine := { registers := b, operators := .builtins }
    let cs : List Call := [.poke "a" (.float 4), .dispatch ⟨"MOV", ["a", "9"], none⟩, .reset]
    b.lookup? "a" = some (.int 1) ∧ m.operators = .builtins ∧
      (m.calls cs).registers.kindOf? "a" = m.registers.kindOf? "a" := by
  intro b m cs
  exact ⟨by decide +kernel, rfl, edits_refine_map.2.2 m cs rfl "a"⟩

end RegisterMachine
