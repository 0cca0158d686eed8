import RegisterMachine.Operand

/-!
# Writing to a bank and reading it

`write` changes the contents under a name and kind that are there and nothing else.  `SameBut` says
so without the value: the names are the same, and so are the contents under every other name.  No
name has two kinds, so the value under a name and the contents of the two tables determine each
other, and an operand is resolved from these alone.
-/

namespace RegisterMachine

@[simp] theorem Kind.other_other (k : Kind) : k.other.other = k := by
  cases k <;> rfl

namespace Bank

theorem contains_eq_isSome (b : Bank) (k : Kind) (name : String) :
    b.contains k name = (b.read? k name).isSome :=
  Std.ExtTreeMap.contains_eq_isSome_getElem?

theorem contains_of_read? {b : Bank} {k : Kind} {name : String} {w : k.Word}
    (h : b.read? k name = some w) : b.contains k name = true := by
  rw [contains_eq_isSome, h]
  rfl

@[simp] theorem contains_write (b : Bank) (name other : String) (v : Value) (k : Kind) :
    (b.write name v).contains k other = b.contains k other := by
  rw [contains_eq_isSome, contains_eq_isSome, read?_write]
  by_cases h : other = name ∧ k = v.kind
  · rw [if_pos h]
    obtain ⟨rfl, rfl⟩ := h
    cases b.read? v.kind other <;> cases v <;> rfl
  · rw [if_neg h]

/-- A bank is determined by what can be read from it. -/
theorem eq_of_read? {b b' : Bank} (h : ∀ k name, b.read? k name = b'.read? k name) : b = b' := by
  have hi : b.ints = b'.ints := Std.ExtTreeMap.ext_getElem? (h .int)
  have hf : b.floats = b'.floats := Std.ExtTreeMap.ext_getElem? (h .float)
  cases b
  cases b'
  simp only at hi hf
  subst hi hf
  rfl

theorem read?_write_self {b : Bank} {k : Kind} {name : String} (h : b.contains k name = true)
    (w : k.Word) : (b.write name (.ofWord k w)).read? k name = some w := by
  rw [contains_eq_isSome, Option.isSome_iff_exists] at h
  obtain ⟨old, hold⟩ := h
  simp [hold]

/-- The last of two writes under one name and kind is the one that stays. -/
theorem write_write {b : Bank} {name : String} {v w : Value} (h : v.kind = w.kind) :
    (b.write name v).write name w = b.write name w := by
  refine eq_of_read? fun k n => ?_
  rw [read?_write, read?_write, read?_write, h]
  by_cases hn : n = name ∧ k = w.kind
  · simp only [if_pos hn]
    obtain ⟨rfl, rfl⟩ := hn
    cases v <;> cases w <;> cases h <;> cases b.read? _ n <;> rfl
  · simp only [if_neg hn]

/-! ## Names

Every name is valid and has one kind. -/

theorem isRegisterName_of_contains {b : Bank} {k : Kind} {name : String}
    (h : b.contains k name = true) : isRegisterName name = true := by
  cases k with
  | int => exact b.valid_int name h
  | float => exact b.valid_float name h

theorem contains_other {b : Bank} {k : Kind} {name : String} (h : b.contains k name = true) :
    b.contains k.other name = false := by
  rw [Bool.eq_false_iff]
  cases k with
  | int => exact b.disjoint name h
  | float => exact fun hi => b.disjoint name hi h

theorem kindOf?_eq_some_iff {b : Bank} {name : String} {k : Kind} :
    b.kindOf? name = some k ↔ b.contains k name = true := by
  have hd (hi : b.contains .int name = true) : b.contains .float name = false := contains_other hi
  unfold kindOf?
  cases hi : b.contains .int name <;> cases hf : b.contains .float name <;> cases k <;> simp_all

theorem kindOf?_congr {b b' : Bank} {name : String}
    (h : ∀ k, b'.contains k name = b.contains k name) : b'.kindOf? name = b.kindOf? name := by
  unfold kindOf?
  rw [h, h]

/-! ## Looking a name up

`lookup?` asks for the kind first and then reads that namespace, so it says everything that can be
read under the name. -/

theorem lookup?_eq_read? (b : Bank) (name : String) :
    b.lookup? name = (b.read? .int name).elim ((b.read? .float name).map .float)
      fun w => some (.int w) := by
  unfold lookup? kindOf? get?
  rw [contains_eq_isSome, contains_eq_isSome]
  cases hi : b.read? .int name with
  | some w => simp [hi, Value.ofWord]
  | none =>
    cases hf : b.read? .float name with
    | some w => simp [hf, Value.ofWord]
    | none => rfl

theorem read?_eq_lookup? (b : Bank) (k : Kind) (name : String) :
    b.read? k name = (b.lookup? name).bind (Value.word? k) := by
  rw [lookup?_eq_read?]
  cases hi : b.read? .int name with
  | some w =>
    have hf : b.read? .float name = none := by
      have ho : b.contains .float name = false := contains_other (contains_of_read? hi)
      rwa [contains_eq_isSome, Option.isSome_eq_false_iff, Option.isNone_iff_eq_none] at ho
    cases k with
    | int => exact hi
    | float => exact hf
  | none =>
    cases hf : b.read? .float name with
    | some w =>
      cases k with
      | int => exact hi
      | float => exact hf
    | none =>
      cases k with
      | int => exact hi
      | float => exact hf

@[simp] theorem destination_eq_ok_iff {b : Bank} {k : Kind} {name : String} {w : k.Word} :
    b.destination k name = .ok w ↔ b.read? k name = some w := by
  unfold destination
  cases b.read? k name with
  | none => simp
  | some w' => simp

/-- What a token stands for, by what is read under it. -/
theorem resolve_eq_read? (b : Bank) (k : Kind) (token : String) :
    b.resolve k token =
      match b.read? k token, (b.read? k.other token).isSome, Literal.word? k token with
      | some w, _, _ => .ok w
      | none, true, _ => .error (.noSuchRegister k token)
      | none, false, some w => .ok w
      | none, false, none => .error (.unresolvedOperand k token) := by
  unfold resolve Operand.classify
  rw [contains_eq_isSome, contains_eq_isSome]
  cases hr : b.read? k token with
  | some w => exact destination_eq_ok_iff.mpr hr
  | none =>
    cases (b.read? k.other token).isSome with
    | true => rfl
    | false =>
      cases Literal.word? k token with
      | some w => rfl
      | none => rfl

/-- The two banks have the same names, and the same contents under every name but `name`. -/
structure SameBut (name : Option String) (b b' : Bank) : Prop where
  names : ∀ k n, b'.contains k n = b.contains k n
  contents : ∀ k n, name ≠ some n → b'.read? k n = b.read? k n

theorem SameBut.refl (name : Option String) (b : Bank) : SameBut name b b :=
  ⟨fun _ _ => rfl, fun _ _ _ => rfl⟩

theorem sameBut_write (b : Bank) (name : String) (v : Value) :
    SameBut (some name) b (b.write name v) := by
  refine ⟨fun k n => by simp, fun k n hn => ?_⟩
  have hne : n ≠ name := fun e => hn (congrArg some e.symm)
  simp [hne]

/-- The bank with the given registers, or the empty one if they cannot all be declared. -/
def ofPoints (points : List (String × Value)) : Bank :=
  (provision points).toOption.getD empty

end Bank
end RegisterMachine
