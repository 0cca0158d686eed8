import Mathlib.Data.List.Forall2
import RegisterMachine.Proofs.Bank

/-!
# What operands denote

`Denotes` says which word a token stands for, and `Refuses` why it stands for none; neither follows
the order in which an operand is examined.  A token has exactly one of the two.  A list of tokens is
resolved to the words that they denote, or it is refused for its leftmost token without a word.
-/

namespace RegisterMachine
namespace Bank

/-- The word of kind `k` that a token stands for: a register of that kind stands for its contents,
and a token that names no register at all may be a literal. -/
inductive Denotes (b : Bank) (k : Kind) (token : String) : k.Word → Prop
  | register {w : k.Word} (held : b.read? k token = some w) : Denotes b k token w
  | literal {w : k.Word} (free : b.lookup? token = none)
      (spelled : Literal.word? k token = some w) : Denotes b k token w

/-- Why a token stands for no word of kind `k`. -/
inductive Refuses (b : Bank) (k : Kind) (token : String) : Cause → Prop
  | otherKind (absent : b.contains k token = false) (present : b.contains k.other token = true) :
      Refuses b k token (.noSuchRegister k token)
  | noLiteral (free : b.lookup? token = none) (unreadable : Literal.word? k token = none) :
      Refuses b k token (.unresolvedOperand k token)

variable {b : Bank} {k : Kind}

theorem lookup?_eq_none_iff {token : String} (k : Kind) :
    b.lookup? token = none ↔ b.read? k token = none ∧ b.read? k.other token = none := by
  rw [lookup?_eq_read?]
  cases k with
  | int =>
    show _ ↔ b.read? .int token = none ∧ b.read? .float token = none
    cases b.read? .int token <;> simp
  | float =>
    show _ ↔ b.read? .float token = none ∧ b.read? .int token = none
    cases b.read? .int token <;> simp

/-- Whether a token is resolved or refused, by what it denotes. -/
theorem resolve_cases (b : Bank) (k : Kind) (token : String) :
    (∃ w, b.resolve k token = .ok w ∧ b.Denotes k token w) ∨
      ∃ cause, b.resolve k token = .error cause ∧ b.Refuses k token cause := by
  rw [resolve_eq_read?]
  cases hr : b.read? k token with
  | some w => exact .inl ⟨w, rfl, .register hr⟩
  | none =>
    have ha : b.contains k token = false := by
      rw [contains_eq_isSome, hr]
      rfl
    cases ho : b.read? k.other token with
    | some w =>
      refine .inr ⟨_, rfl, .otherKind ha ?_⟩
      rw [contains_eq_isSome, ho]
      rfl
    | none =>
      have hfree : b.lookup? token = none := (lookup?_eq_none_iff k).mpr ⟨hr, ho⟩
      cases hl : Literal.word? k token with
      | some w => exact .inl ⟨w, rfl, .literal hfree hl⟩
      | none => exact .inr ⟨_, rfl, .noLiteral hfree hl⟩

theorem Denotes.resolve {token : String} {w : k.Word} (h : b.Denotes k token w) :
    b.resolve k token = .ok w := by
  rw [resolve_eq_read?]
  cases h with
  | register held => rw [held]
  | literal free spelled =>
    obtain ⟨hr, ho⟩ := (lookup?_eq_none_iff k).mp free
    rw [hr, ho, spelled]
    rfl

theorem Refuses.resolve {token : String} {cause : Cause} (h : b.Refuses k token cause) :
    b.resolve k token = .error cause := by
  rw [resolve_eq_read?]
  cases h with
  | otherKind absent present =>
    rw [contains_eq_isSome, Option.isSome_eq_false_iff, Option.isNone_iff_eq_none] at absent
    rw [contains_eq_isSome] at present
    rw [absent, present]
  | noLiteral free unreadable =>
    obtain ⟨hr, ho⟩ := (lookup?_eq_none_iff k).mp free
    rw [hr, ho, unreadable]
    rfl

theorem resolve_eq_ok_iff {token : String} {w : k.Word} :
    b.resolve k token = .ok w ↔ b.Denotes k token w := by
  refine ⟨fun h => ?_, Denotes.resolve⟩
  obtain ⟨w', hw, hd⟩ | ⟨cause, hc, -⟩ := resolve_cases b k token
  · rw [h] at hw
    cases hw
    exact hd
  · rw [h] at hc
    cases hc

/-! ## Lists of tokens -/

theorem resolveAll_cons (b : Bank) (k : Kind) (token : String) (rest : List String) :
    b.resolveAll k (token :: rest) =
      (b.resolve k token).bind fun w => (b.resolveAll k rest).map (w :: ·) := by
  unfold resolveAll
  rw [List.mapM_cons]
  rfl

theorem resolveAll_eq_ok_iff {tokens : List String} {words : List k.Word} :
    b.resolveAll k tokens = .ok words ↔ List.Forall₂ (b.Denotes k) tokens words := by
  induction tokens generalizing words with
  | nil =>
    show Except.ok [] = Except.ok words ↔ _
    rw [List.forall₂_nil_left_iff]
    exact ⟨fun h => (Except.ok.inj h).symm, fun h => congrArg Except.ok h.symm⟩
  | cons token rest ih =>
    rw [resolveAll_cons, List.forall₂_cons_left_iff]
    constructor
    · intro h
      cases hw : b.resolve k token with
      | error cause => rw [hw] at h; cases h
      | ok w =>
        cases hr : b.resolveAll k rest with
        | error cause => rw [hw, hr] at h; cases h
        | ok ws =>
          rw [hw, hr] at h
          cases h
          exact ⟨w, ws, resolve_eq_ok_iff.mp hw, ih.mp hr, rfl⟩
    · rintro ⟨w, ws, hw, hr, rfl⟩
      rw [hw.resolve, ih.mpr hr]
      rfl

/-- A list is refused for its leftmost token without a word. -/
theorem resolveAll_eq_error_iff {tokens : List String} {cause : Cause} :
    b.resolveAll k tokens = .error cause ↔
      ∃ before token after, tokens = before ++ token :: after ∧
        (∀ earlier ∈ before, ∃ w, b.Denotes k earlier w) ∧ b.Refuses k token cause := by
  induction tokens with
  | nil =>
    refine ⟨fun h => (nomatch h), ?_⟩
    rintro ⟨before, token, after, hsplit, -⟩
    simp at hsplit
  | cons token rest ih =>
    rw [resolveAll_cons]
    obtain ⟨w, hw, hd⟩ | ⟨refusal, hw, hr⟩ := resolve_cases b k token
    · have hrest : (b.resolve k token).bind (fun w => (b.resolveAll k rest).map (w :: ·)) =
          .error cause ↔ b.resolveAll k rest = .error cause := by
        rw [hw]
        cases b.resolveAll k rest <;> simp [Except.bind, Except.map]
      rw [hrest, ih]
      constructor
      · rintro ⟨before, bad, after, rfl, hb, he⟩
        refine ⟨token :: before, bad, after, rfl, ?_, he⟩
        rintro earlier (_ | ⟨_, hmem⟩)
        · exact ⟨w, hd⟩
        · exact hb earlier hmem
      · rintro ⟨before, bad, after, hsplit, hb, he⟩
        -- The first token denotes a word, so it cannot be the one that is refused.
        cases before with
        | nil =>
          cases hsplit
          rw [he.resolve] at hw
          cases hw
        | cons first before =>
          cases hsplit
          exact ⟨before, bad, after, rfl, fun t ht => hb t (List.mem_cons_of_mem _ ht), he⟩
    · rw [hw]
      constructor
      · intro h
        cases h
        exact ⟨[], token, rest, rfl, by simp, hr⟩
      · rintro ⟨before, bad, after, hsplit, hb, he⟩
        cases before with
        | nil =>
          cases hsplit
          rw [he.resolve] at hw
          exact congrArg Except.error (Except.error.inj hw).symm
        | cons first before =>
          cases hsplit
          obtain ⟨w, hd⟩ := hb token List.mem_cons_self
          rw [hd.resolve] at hw
          cases hw

theorem resolveAll_append_eq_ok_iff {xs ys : List String} {words : List k.Word} :
    b.resolveAll k (xs ++ ys) = .ok words ↔
      ∃ us vs, b.resolveAll k xs = .ok us ∧ b.resolveAll k ys = .ok vs ∧ words = us ++ vs := by
  have happend : b.resolveAll k (xs ++ ys) =
      (b.resolveAll k xs).bind fun us => (b.resolveAll k ys).map (us ++ ·) := by
    unfold resolveAll
    rw [List.mapM_append]
    rfl
  rw [happend]
  cases b.resolveAll k xs with
  | error cause => simp [Except.bind]
  | ok us =>
    cases b.resolveAll k ys with
    | error cause => simp [Except.bind, Except.map]
    | ok vs => simp [Except.bind, Except.map, eq_comm]

end Bank
end RegisterMachine
