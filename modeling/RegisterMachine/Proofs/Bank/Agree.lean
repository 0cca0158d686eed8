import RegisterMachine.Proofs.Bank

/-!
# Banks that agree on some names

An instruction looks at a bank through its operands, so two banks that agree on these are the same
to it: destinations and operands are found alike in both.  A write keeps the agreement on all names
that it does not touch, and the same write on both sides keeps it on all.
-/

namespace RegisterMachine
namespace Bank

def Agree (names : List String) (b b' : Bank) : Prop :=
  ∀ name ∈ names, ∀ k, b.read? k name = b'.read? k name

theorem agree_of_lookup? {names : List String} {b b' : Bank}
    (h : ∀ name ∈ names, b.lookup? name = b'.lookup? name) : Agree names b b' := by
  intro name hn k
  rw [read?_eq_lookup?, read?_eq_lookup?, h name hn]

/-- What differs in one register only agrees wherever that register is not named. -/
theorem SameBut.agree {name : Option String} {names : List String} {b b' : Bank}
    (h : SameBut name b b') (hn : ∀ n, name = some n → n ∉ names) : Agree names b b' := by
  intro n hm k
  exact (h.contents k n fun e => hn n e hm).symm

theorem agree_write {name : String} {names : List String} (hn : name ∉ names) (b : Bank)
    (v : Value) : Agree names b (b.write name v) := by
  intro n hm k
  have hne : n ≠ name := fun e => hn (e ▸ hm)
  simp [hne]

namespace Agree

variable {names : List String} {b b' : Bank}

theorem lookup? (h : Agree names b b') {name : String} (hn : name ∈ names) :
    b.lookup? name = b'.lookup? name := by
  rw [lookup?_eq_read?, lookup?_eq_read?, h name hn, h name hn]

theorem destination (h : Agree names b b') {name : String} (hn : name ∈ names) (k : Kind) :
    b.destination k name = b'.destination k name := by
  unfold Bank.destination
  rw [h name hn]

theorem resolve (h : Agree names b b') {token : String} (ht : token ∈ names) (k : Kind) :
    b.resolve k token = b'.resolve k token := by
  rw [resolve_eq_read?, resolve_eq_read?, h token ht, h token ht]

theorem resolveAll (h : Agree names b b') {tokens : List String} (ht : tokens ⊆ names)
    (k : Kind) : b.resolveAll k tokens = b'.resolveAll k tokens := by
  unfold Bank.resolveAll
  induction tokens with
  | nil => rfl
  | cons token rest ih =>
    have hrest : rest ⊆ names := fun t hm => ht (List.mem_cons_of_mem token hm)
    rw [List.mapM_cons, List.mapM_cons, h.resolve (ht List.mem_cons_self), ih hrest]

theorem write (h : Agree names b b') (name : String) (v : Value) :
    Agree names (b.write name v) (b'.write name v) := by
  intro n hn k
  simp [h n hn k]

end Agree
end Bank
end RegisterMachine
