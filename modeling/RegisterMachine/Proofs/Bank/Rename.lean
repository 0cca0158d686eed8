import RegisterMachine.Proofs.Bank

/-!
# Renaming registers

`Renamed f` says that one bank holds under the image of each name what the other holds under the
name; there is one such bank for every `f` whose images are valid names and different
(`renamed_rename`, `Renamed.unique`).  `Renaming` says when tokens may be rewritten along with it: no two registers
get one name, and a token that names no register stays as it is and does not become the name of a
register either.  Then a token in the old bank and its image in the new one stand for the same word,
or both are refused for one reason, which tells of the image where it told of the token.
-/

namespace RegisterMachine

/-- The cause with every register and every token in it replaced. -/
def Cause.rename (f : String → String) : Cause → Cause
  | noSuchRegister kind name => noSuchRegister kind (f name)
  | unresolvedOperand kind token => unresolvedOperand kind (f token)
  | divisionByZero register => divisionByZero (f register)
  | duplicateRegister name => duplicateRegister (f name)
  | invalidRegisterName name => invalidRegisterName (f name)
  | invalidLiteral kind token => invalidLiteral kind (f token)
  | cause => cause

@[simp] theorem Cause.label_rename (f : String → String) (cause : Cause) :
    (cause.rename f).label = cause.label := by
  cases cause <;> rfl

namespace Table

variable {α : Type}

def rename (t : Table α) (f : String → String) : Table α :=
  .ofList (t.toList.map fun p => (f p.1, p.2))

theorem getElem?_rename {t : Table α} {f : String → String}
    (hf : ∀ a c, t[a]?.isSome → t[c]?.isSome → f a = f c → a = c) {name : String} {w : α} :
    (t.rename f)[name]? = some w ↔ ∃ old, f old = name ∧ t[old]? = some w := by
  have hlist : ∀ old w', (old, w') ∈ t.toList ↔ t[old]? = some w' := fun _ _ =>
    Std.ExtTreeMap.mem_toList_iff_getElem?_eq_some
  have hkeys : (t.toList.map fun p => (f p.1, p.2)).Pairwise
      fun a c => ¬compare a.1 c.1 = .eq := by
    rw [List.pairwise_map]
    refine List.Pairwise.imp_of_mem ?_ Std.ExtTreeMap.distinct_keys_toList
    intro p q hp hq hpq he
    refine hpq (Std.compare_eq_iff_eq.mpr (hf _ _ ?_ ?_ (Std.compare_eq_iff_eq.mp he)))
    · rw [(hlist _ _).mp hp]; rfl
    · rw [(hlist _ _).mp hq]; rfl
  have hto : ∀ old w', t[old]? = some w' → (t.rename f)[f old]? = some w' := by
    intro old w' h
    refine Std.ExtTreeMap.getElem?_ofList_of_mem Std.compare_self hkeys ?_
    exact List.mem_map.mpr ⟨(old, w'), (hlist _ _).mpr h, rfl⟩
  constructor
  · intro h
    -- A name that is no image of an old one would have no contents.
    have hmem : ((t.toList.map fun p => (f p.1, p.2)).map Prod.fst).contains name = true := by
      apply Decidable.byContradiction
      intro hn
      rw [rename, Std.ExtTreeMap.getElem?_ofList_of_contains_eq_false
        (Bool.eq_false_iff.mpr hn)] at h
      cases h
    rw [List.contains_iff_mem, List.map_map, List.mem_map] at hmem
    obtain ⟨⟨old, w'⟩, hold, rfl⟩ := hmem
    have hw : t[old]? = some w' := (hlist _ _).mp hold
    refine ⟨old, rfl, ?_⟩
    rw [hw, ← hto old w' hw]
    exact h
  · rintro ⟨old, rfl, h⟩
    exact hto old w h

end Table

namespace Bank

def declares (b : Bank) (name : String) : Bool :=
  (b.kindOf? name).isSome

theorem declares_iff {b : Bank} {name : String} :
    b.declares name = true ↔ ∃ k, b.contains k name = true := by
  simp only [declares, Option.isSome_iff_exists, kindOf?_eq_some_iff]

theorem declares_congr {b b' : Bank} {name : String}
    (h : ∀ k, b'.contains k name = b.contains k name) : b'.declares name = b.declares name := by
  unfold declares
  rw [kindOf?_congr h]

@[simp] theorem declares_write (b : Bank) (name other : String) (v : Value) :
    (b.write name v).declares other = b.declares other :=
  declares_congr fun k => by simp

theorem declares_of_read? {b : Bank} {k : Kind} {name : String} {w : k.Word}
    (h : b.read? k name = some w) : b.declares name = true :=
  declares_iff.mpr ⟨k, contains_of_read? h⟩

theorem read?_of_not_declares {b : Bank} {name : String} (h : b.declares name = false) (k : Kind) :
    b.read? k name = none := by
  cases hr : b.read? k name with
  | none => rfl
  | some w => rw [declares_of_read? hr] at h; cases h

/-- No two registers get the same name. -/
def InjectiveOn (b : Bank) (f : String → String) : Prop :=
  ∀ a c, b.declares a = true → b.declares c = true → f a = f c → a = c

theorem InjectiveOn.of_declares {b b' : Bank} {f : String → String} (h : b.InjectiveOn f)
    (hd : ∀ name, b'.declares name = b.declares name) : b'.InjectiveOn f := by
  intro a c
  rw [hd, hd]
  exact h a c

/-- The second bank holds under the image of each name what the first one holds under the name, and
nothing else. -/
def Renamed (f : String → String) (b b' : Bank) : Prop :=
  ∀ (k : Kind) (name : String) (w : k.Word),
    b'.read? k name = some w ↔ ∃ old, f old = name ∧ b.read? k old = some w

section Rename

variable {b : Bank} {f : String → String}

theorem InjectiveOn.getElem?_rename (hf : b.InjectiveOn f) (k : Kind) {name : String}
    {w : k.Word} : (Table.rename (b.table k) f)[name]? = some w ↔
      ∃ old, f old = name ∧ b.read? k old = some w := by
  refine Table.getElem?_rename fun a c ha hc => ?_
  obtain ⟨_, ha⟩ := Option.isSome_iff_exists.mp ha
  obtain ⟨_, hc⟩ := Option.isSome_iff_exists.mp hc
  exact hf a c (declares_of_read? ha) (declares_of_read? hc)

/-- A name of the renamed table is the image of one that is read before. -/
theorem InjectiveOn.exists_read? (hf : b.InjectiveOn f) {k : Kind} {name : String}
    (h : name ∈ Table.rename (b.table k) f) : ∃ old w, f old = name ∧ b.read? k old = some w := by
  obtain ⟨w, hw⟩ := Option.isSome_iff_exists.mp (Std.ExtTreeMap.mem_iff_isSome_getElem?.mp h)
  obtain ⟨old, ho, hr⟩ := (hf.getElem?_rename k).mp hw
  exact ⟨old, w, ho, hr⟩

/-- The bank under new names that are valid and different. -/
def rename (b : Bank) (f : String → String) (hf : b.InjectiveOn f)
    (hv : ∀ name, b.declares name = true → isRegisterName (f name) = true) : Bank where
  ints := Table.rename b.ints f
  floats := Table.rename b.floats f
  valid_int name h := by
    obtain ⟨old, w, rfl, hr⟩ := hf.exists_read? (k := .int) h
    exact hv old (declares_of_read? hr)
  valid_float name h := by
    obtain ⟨old, w, rfl, hr⟩ := hf.exists_read? (k := .float) h
    exact hv old (declares_of_read? hr)
  disjoint name hi hf' := by
    obtain ⟨old, w, rfl, hr⟩ := hf.exists_read? (k := .int) hi
    obtain ⟨old', w', ho, hr'⟩ := hf.exists_read? (k := .float) hf'
    obtain rfl := hf old' old (declares_of_read? hr') (declares_of_read? hr) ho
    exact b.disjoint old' (contains_of_read? hr) (contains_of_read? hr')

theorem renamed_rename (hf : b.InjectiveOn f)
    (hv : ∀ name, b.declares name = true → isRegisterName (f name) = true) :
    Renamed f b (b.rename f hf hv) := by
  intro k name w
  cases k with
  | int => exact hf.getElem?_rename .int
  | float => exact hf.getElem?_rename .float

end Rename

namespace Renamed

variable {b b' b'' : Bank} {f g : String → String}

theorem unique (h : Renamed f b b') (h' : Renamed f b b'') : b' = b'' :=
  eq_of_read? fun k name => Option.ext fun w => (h k name w).trans (h' k name w).symm

/-- Under its new name a register has the contents that it had under the old one. -/
theorem read? (h : Renamed f b b') (hf : b.InjectiveOn f) {name : String}
    (hn : b.declares name = true) (k : Kind) : b'.read? k (f name) = b.read? k name := by
  refine Option.ext fun w => ?_
  rw [h]
  constructor
  · rintro ⟨old, he, hr⟩
    rw [← hf old name (declares_of_read? hr) hn he]
    exact hr
  · exact fun hr => ⟨name, rfl, hr⟩

theorem lookup? (h : Renamed f b b') (hf : b.InjectiveOn f) {name : String}
    (hn : b.declares name = true) : b'.lookup? (f name) = b.lookup? name := by
  rw [lookup?_eq_read?, lookup?_eq_read?, h.read? hf hn, h.read? hf hn]

/-- Only what happens to the names of registers matters. -/
theorem congr (h : Renamed f b b') (hfg : ∀ name, b.declares name = true → f name = g name) :
    Renamed g b b' := by
  intro k name w
  rw [h]
  refine exists_congr fun old => and_congr_left fun hr => ?_
  rw [hfg old (declares_of_read? hr)]

/-- A register may be written under its new name as well as under the old one. -/
theorem write (h : Renamed f b b') (hf : b.InjectiveOn f) {name : String} {v : Value}
    (hn : b.contains v.kind name = true) :
    Renamed f (b.write name v) (b'.write (f name) v) := by
  have hname : b.declares name = true := declares_iff.mpr ⟨_, hn⟩
  intro k other w
  by_cases ho : other = f name ∧ k = v.kind
  · obtain ⟨rfl, rfl⟩ := ho
    rw [read?_write, if_pos ⟨rfl, rfl⟩, h.read? hf hname]
    constructor
    · intro hw
      exact ⟨name, rfl, by simpa using hw⟩
    · rintro ⟨old, he, hr⟩
      have hold : b.declares old = true := by
        rw [← declares_write b name old v]
        exact declares_of_read? hr
      obtain rfl := hf old name hold hname he
      simpa using hr
  · rw [read?_write, if_neg ho, h]
    refine exists_congr fun old => and_congr_right fun he => ?_
    rw [read?_write, if_neg]
    rintro ⟨rfl, hk⟩
    exact ho ⟨he.symm, hk⟩

end Renamed

/-- What becomes of a token when the registers are renamed: it is replaced where it names one. -/
def translate (b : Bank) (f : String → String) (token : String) : String :=
  if b.declares token then f token else token

theorem translate_of_declares {b : Bank} {f : String → String} {token : String}
    (h : b.declares token = true) : b.translate f token = f token := if_pos h

/-- The second bank is the first one renamed, and the tokens may be replaced by their images. -/
structure Renaming (f : String → String) (tokens : List String) (b b' : Bank) : Prop where
  renamed : Renamed f b b'
  injective : b.InjectiveOn f
  literal : ∀ t ∈ tokens, b.declares t = false → f t = t
  fresh : ∀ t ∈ tokens, b.declares t = false → ∀ name, b.declares name = true → t ≠ f name

namespace Renaming

variable {b b' : Bank} {f : String → String} {tokens : List String}

theorem translate (hb : Renamed f b b') (hf : b.InjectiveOn f)
    (ht : ∀ t ∈ tokens, b.declares t = false → ∀ name, b.declares name = true → t ≠ f name) :
    Renaming (b.translate f) tokens b b' := by
  refine ⟨hb.congr fun name hn => (translate_of_declares hn).symm, ?_, ?_, ?_⟩
  · intro a c ha hc
    rw [translate_of_declares ha, translate_of_declares hc]
    exact hf a c ha hc
  · intro t _ hd
    unfold Bank.translate
    rw [hd]
    rfl
  · intro t hm hd name hn
    rw [translate_of_declares hn]
    exact ht t hm hd name hn

theorem write (h : Renaming f tokens b b') {name : String} {v : Value}
    (hn : b.contains v.kind name = true) :
    Renaming f tokens (b.write name v) (b'.write (f name) v) := by
  have hd (other : String) := declares_write b name other v
  refine ⟨h.renamed.write h.injective hn, h.injective.of_declares hd, ?_, ?_⟩
  · intro t ht
    rw [hd]
    exact h.literal t ht
  · intro t ht
    simp only [hd]
    exact h.fresh t ht

theorem read? (h : Renaming f tokens b b') {token : String} (ht : token ∈ tokens) (k : Kind) :
    b'.read? k (f token) = b.read? k token := by
  cases hd : b.declares token with
  | true => exact h.renamed.read? h.injective hd k
  | false =>
    rw [read?_of_not_declares hd]
    refine Option.eq_none_iff_forall_ne_some.mpr fun w hw => ?_
    -- The token would be a new name, although it is not an old one.
    obtain ⟨old, he, hr⟩ := (h.renamed k (f token) w).mp hw
    have hne := h.fresh token ht hd old (declares_of_read? hr)
    rw [he, h.literal token ht hd] at hne
    exact hne rfl

theorem destination (h : Renaming f tokens b b') {token : String} (ht : token ∈ tokens)
    (k : Kind) :
    b'.destination k (f token) = (b.destination k token).mapError (Cause.rename f) := by
  unfold Bank.destination
  rw [h.read? ht]
  cases b.read? k token with
  | none => rfl
  | some w => rfl

theorem resolve (h : Renaming f tokens b b') {token : String} (ht : token ∈ tokens) (k : Kind) :
    b'.resolve k (f token) = (b.resolve k token).mapError (Cause.rename f) := by
  rw [resolve_eq_read?, resolve_eq_read?, h.read? ht, h.read? ht]
  cases hr : b.read? k token with
  | some w => rfl
  | none =>
    cases ho : (b.read? k.other token).isSome with
    | true => rfl
    | false =>
      have hd : b.declares token = false := by
        rw [Bool.eq_false_iff, ne_eq, declares_iff]
        rintro ⟨j, hj⟩
        rw [contains_eq_isSome] at hj
        cases j <;> cases k <;> simp_all [Kind.other]
      -- A token that names no register is a literal or nothing, and it has been left alone.
      rw [h.literal token ht hd]
      cases Literal.word? k token with
      | some w => rfl
      | none =>
        show Except.error _ = Except.error (Cause.unresolvedOperand k (f token))
        rw [h.literal token ht hd]

theorem resolveAll (h : Renaming f tokens b b') {operands : List String} (ho : operands ⊆ tokens)
    (k : Kind) :
    b'.resolveAll k (operands.map f) =
      (b.resolveAll k operands).mapError (Cause.rename f) := by
  unfold Bank.resolveAll
  induction operands with
  | nil => rfl
  | cons token rest ih =>
    have hrest : rest ⊆ tokens := fun t hm => ho (List.mem_cons_of_mem token hm)
    rw [List.map_cons, List.mapM_cons, List.mapM_cons, h.resolve (ho List.mem_cons_self), ih hrest]
    cases b.resolve k token with
    | error cause => rfl
    | ok w =>
      cases rest.mapM (b.resolve k) with
      | error cause => rfl
      | ok words => rfl

end Renaming
end Bank
end RegisterMachine
