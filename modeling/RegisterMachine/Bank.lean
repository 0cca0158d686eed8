import Std.Data.ExtTreeMap
import RegisterMachine.Cause
import RegisterMachine.Text.Blank

/-!
# The register bank

Registers live in two namespaces, one for each kind.  A bank carries the proofs that every name in
them is valid and that no name is in both, so each operation that makes a bank has to show this of
what it makes: `declare` by its two checks, and `write` because it adds no name.  `points` lists the
registers of both namespaces in the order of the names.
-/

namespace RegisterMachine

/-- A finite map from names.  Names are ordered by code points, which is also the order of their
UTF-8 bytes.  Equal contents make equal tables. -/
abbrev Table (α : Type) : Type :=
  Std.ExtTreeMap String α compare

/-- A register name is one token of a program line that cannot be taken for a directive or for
quoted text. -/
def isRegisterName (name : String) : Bool :=
  let cs := name.toList
  cs ≠ [] && cs.head? ≠ some '.' &&
    cs.all fun c => !(Text.isBlank c || c == ',' || c == '#' || c == '"')

structure Bank where
  ints : Table Int64 := ∅
  floats : Table Float := ∅
  valid_int : ∀ name ∈ ints, isRegisterName name = true := by simp
  valid_float : ∀ name ∈ floats, isRegisterName name = true := by simp
  disjoint : ∀ name ∈ ints, name ∉ floats := by simp

namespace Bank

def empty : Bank := {}

def table (b : Bank) : (k : Kind) → Table k.Word
  | .int => b.ints
  | .float => b.floats

def read? (b : Bank) (k : Kind) (name : String) : Option k.Word :=
  (b.table k)[name]?

def contains (b : Bank) (k : Kind) (name : String) : Bool :=
  (b.table k).contains name

def kindOf? (b : Bank) (name : String) : Option Kind :=
  if b.contains .int name then some .int
  else if b.contains .float name then some .float
  else none

def get? (b : Bank) (k : Kind) (name : String) : Option Value :=
  (b.read? k name).map (Value.ofWord k)

def lookup? (b : Bank) (name : String) : Option Value := do
  b.get? (← b.kindOf? name) name

/-- Replaces the contents of the register, if there is one of the value's kind. -/
def write (b : Bank) (name : String) : Value → Bank
  | .int w => { b with
      ints := b.ints.modify name fun _ => w
      valid_int := fun other hm => b.valid_int other (Std.ExtTreeMap.mem_modify.mp hm)
      disjoint := fun other hm => b.disjoint other (Std.ExtTreeMap.mem_modify.mp hm) }
  | .float w => { b with
      floats := b.floats.modify name fun _ => w
      valid_float := fun other hm => b.valid_float other (Std.ExtTreeMap.mem_modify.mp hm)
      disjoint := fun other hi hm => b.disjoint other hi (Std.ExtTreeMap.mem_modify.mp hm) }

theorem not_mem_of_kindOf? {b : Bank} {name : String} (h : b.kindOf? name = none) :
    name ∉ b.ints ∧ name ∉ b.floats := by
  unfold kindOf? at h
  cases hi : b.contains .int name <;> cases hf : b.contains .float name <;> simp [hi, hf] at h
  exact ⟨Bool.eq_false_iff.mp hi, Bool.eq_false_iff.mp hf⟩

/-- Adds a register under a valid name that no register has. -/
def insert (b : Bank) (name : String) (v : Value) (valid : isRegisterName name = true)
    (new : b.kindOf? name = none) : Bank :=
  match v with
  | .int w => { b with
      ints := b.ints.insert name w
      valid_int := by
        intro other hm
        rcases Std.ExtTreeMap.mem_insert.mp hm with he | hm
        · exact Std.compare_eq_iff_eq.mp he ▸ valid
        · exact b.valid_int other hm
      disjoint := by
        intro other hm
        rcases Std.ExtTreeMap.mem_insert.mp hm with he | hm
        · exact Std.compare_eq_iff_eq.mp he ▸ (not_mem_of_kindOf? new).2
        · exact b.disjoint other hm }
  | .float w => { b with
      floats := b.floats.insert name w
      valid_float := by
        intro other hm
        rcases Std.ExtTreeMap.mem_insert.mp hm with he | hm
        · exact Std.compare_eq_iff_eq.mp he ▸ valid
        · exact b.valid_float other hm
      disjoint := by
        intro other hi hm
        rcases Std.ExtTreeMap.mem_insert.mp hm with he | hm
        · exact (not_mem_of_kindOf? new).1 (Std.compare_eq_iff_eq.mp he ▸ hi)
        · exact b.disjoint other hi hm }

@[simp] theorem read?_write (b : Bank) (name other : String) (v : Value) (k : Kind) :
    (b.write name v).read? k other =
      if other = name ∧ k = v.kind then (b.read? k other).bind fun _ => v.word? k
      else b.read? k other := by
  by_cases hn : other = name
  · subst hn
    cases k <;> cases v <;>
      simp [write, read?, table, Value.kind, Value.word?, Option.map_eq_bind, Function.comp_def]
  · cases k <;> cases v <;>
      simp [write, read?, table, Std.ExtTreeMap.getElem?_modify, hn, Ne.symm hn]

@[simp] theorem read?_insert (b : Bank) (name other : String) (v : Value)
    (valid : isRegisterName name = true) (new : b.kindOf? name = none) (k : Kind) :
    (b.insert name v valid new).read? k other =
      if other = name ∧ k = v.kind then v.word? k else b.read? k other := by
  cases k <;> cases v <;>
    simp [insert, read?, table, Value.kind, Value.word?, Std.ExtTreeMap.getElem?_insert,
      @eq_comm _ name]

/-- Adds a register under a name that is valid and new in both namespaces. -/
def declare (b : Bank) (name : String) (v : Value) : Except Cause Bank :=
  if hn : isRegisterName name = true then
    if hk : b.kindOf? name = none then .ok (b.insert name v hn hk)
    else .error (.duplicateRegister name)
  else .error (.invalidRegisterName name)

def set (b : Bank) (name : String) (v : Value) : Except Cause Bank :=
  if b.contains v.kind name then .ok (b.write name v)
  else .error (.noSuchRegister v.kind name)

def provision (registers : List (String × Value)) : Except Cause Bank :=
  registers.foldlM (fun b r => b.declare r.1 r.2) empty

def pointsOf (b : Bank) (k : Kind) : List (String × Value) :=
  (b.table k).toList.map fun p => (p.1, Value.ofWord k p.2)

def points (b : Bank) : List (String × Value) :=
  (b.pointsOf .int ++ b.pointsOf .float).mergeSort fun p q => (compare p.1 q.1).isLE

def size (b : Bank) : Nat :=
  b.ints.size + b.floats.size

def isEmpty (b : Bank) : Bool :=
  b.size == 0

end Bank
end RegisterMachine
