import Mathlib.Data.List.Perm.Basic
import RegisterMachine.Proofs.Bank.Denotation
import RegisterMachine.Proofs.Builtin.Commit

/-!
# What a folding instruction computes

A folding instruction combines the words of its operands, one after the other, into the contents of
its destination.  `run_fold` says when it succeeds and with which result, and which refusal it gives
otherwise: the destination comes first, then the leftmost operand that denotes nothing, and a zero
divisor last, wherever it stands.  All operands are read in the bank before the instruction.
-/

namespace RegisterMachine
namespace Fold

/-- The operations that have no result for a zero operand. -/
def Divides (op : Fold) : Prop :=
  op = .int .div ∨ op = .int .mod

def combine (op : Fold) (a b : op.kind.Word) : op.kind.Word :=
  (op.step a b).getD a

theorem step_of_divides {op : Fold} (h : op.Divides) (a : op.kind.Word) :
    op.step a op.kind.zero = none := by
  obtain rfl | rfl := h <;> rfl

theorem step_eq_combine {op : Fold} {a b : op.kind.Word} (h : op.Divides → b ≠ op.kind.zero) :
    op.step a b = some (op.combine a b) := by
  suffices hs : ∃ r, op.step a b = some r by
    obtain ⟨r, hr⟩ := hs
    rw [combine, hr, Option.getD_some]
  cases op with
  | float op => exact ⟨_, rfl⟩
  | int op =>
    cases op with
    | div => exact ⟨_, if_neg (h (.inl rfl))⟩
    | mod => exact ⟨_, if_neg (h (.inr rfl))⟩
    | _ => exact ⟨_, rfl⟩

theorem foldlM_step {op : Fold} {words : List op.kind.Word}
    (h : op.Divides → op.kind.zero ∉ words) (seed : op.kind.Word) :
    words.foldlM op.step seed = some (words.foldl op.combine seed) := by
  induction words generalizing seed with
  | nil => rfl
  | cons w rest ih =>
    have hw : op.step seed w = some (op.combine seed w) :=
      step_eq_combine fun hd hz => h hd (hz ▸ List.mem_cons_self)
    rw [List.foldlM_cons, hw]
    exact ih (fun hd hz => h hd (List.mem_cons_of_mem w hz)) _

theorem foldlM_step_of_zero {op : Fold} (hd : op.Divides) {words : List op.kind.Word}
    (hz : op.kind.zero ∈ words) (seed : op.kind.Word) : words.foldlM op.step seed = none := by
  induction words generalizing seed with
  | nil => cases hz
  | cons w rest ih =>
    rw [List.foldlM_cons]
    cases hs : op.step seed w with
    | none => rfl
    | some next =>
      refine ih ?_ next
      rcases List.mem_cons.mp hz with rfl | hrest
      · rw [step_of_divides hd] at hs
        cases hs
      · exact hrest

/-- Why the words of `tokens` cannot be folded into `target`. -/
inductive Refusal (op : Fold) (b : Bank) (target : String) (tokens : List String) : Cause → Prop
  | target (absent : b.read? op.kind target = none) :
      Refusal op b target tokens (.noSuchRegister op.kind target)
  | operand {seed : op.kind.Word} (present : b.read? op.kind target = some seed)
      {before after : List String} {token : String} (split : tokens = before ++ token :: after)
      (earlier : ∀ t ∈ before, ∃ w, b.Denotes op.kind t w) {cause : Cause}
      (refused : b.Refuses op.kind token cause) : Refusal op b target tokens cause
  | division {seed : op.kind.Word} (present : b.read? op.kind target = some seed)
      {words : List op.kind.Word} (denoted : List.Forall₂ (b.Denotes op.kind) tokens words)
      (divides : op.Divides) (zero : op.kind.zero ∈ words) :
      Refusal op b target tokens (.divisionByZero target)

/-- The destination holds `seed`, the tokens denote `words`, and these can be folded into it. -/
structure Defined (op : Fold) (b : Bank) (target : String) (tokens : List String)
    (seed : op.kind.Word) (words : List op.kind.Word) : Prop where
  present : b.read? op.kind target = some seed
  denoted : List.Forall₂ (b.Denotes op.kind) tokens words
  nonzero : op.Divides → op.kind.zero ∉ words

variable {op : Fold} {b : Bank} {target : String} {tokens : List String}

theorem defined_or_refusal (op : Fold) (b : Bank) (target : String) (tokens : List String) :
    (∃ seed words, op.Defined b target tokens seed words) ∨
      ∃ cause, op.Refusal b target tokens cause := by
  cases hp : b.read? op.kind target with
  | none => exact .inr ⟨_, .target hp⟩
  | some seed =>
    cases hr : b.resolveAll op.kind tokens with
    | error cause =>
      obtain ⟨before, token, after, split, earlier, refused⟩ := Bank.resolveAll_eq_error_iff.mp hr
      exact .inr ⟨cause, .operand hp split earlier refused⟩
    | ok words =>
      have denoted := Bank.resolveAll_eq_ok_iff.mp hr
      by_cases hz : op.Divides ∧ op.kind.zero ∈ words
      · exact .inr ⟨_, .division hp denoted hz.1 hz.2⟩
      · exact .inl ⟨seed, words, hp, denoted, fun hd hm => hz ⟨hd, hm⟩⟩

/-- Where the destination is there and the tokens denote words, the fold of the words decides. -/
theorem planFold_of_denoted {seed : op.kind.Word} {words : List op.kind.Word}
    (present : b.read? op.kind target = some seed)
    (denoted : List.Forall₂ (b.Denotes op.kind) tokens words) :
    Builtin.planFold op b target tokens =
      match words.foldlM op.step seed with
      | some result => .ok (.store target (.ofWord op.kind result))
      | none => .error (.divisionByZero target) := by
  unfold Builtin.planFold
  rw [Bank.destination_eq_ok_iff.mpr present, Bank.resolveAll_eq_ok_iff.mpr denoted]
  rfl

theorem Defined.plan {seed : op.kind.Word} {words : List op.kind.Word}
    (h : op.Defined b target tokens seed words) :
    Builtin.planFold op b target tokens =
      .ok (.store target (.ofWord op.kind (words.foldl op.combine seed))) := by
  rw [planFold_of_denoted h.present h.denoted, foldlM_step h.nonzero]

theorem Refusal.plan {cause : Cause} (h : op.Refusal b target tokens cause) :
    Builtin.planFold op b target tokens = .error cause := by
  cases h with
  | target absent =>
    unfold Builtin.planFold Bank.destination
    rw [absent]
    rfl
  | operand present split earlier refused =>
    have hr := Bank.resolveAll_eq_error_iff.mpr ⟨_, _, _, split, earlier, refused⟩
    unfold Builtin.planFold
    rw [Bank.destination_eq_ok_iff.mpr present, hr]
    rfl
  | division present denoted divides zero =>
    rw [planFold_of_denoted present denoted, foldlM_step_of_zero divides zero]

end Fold

namespace Builtin

theorem accepts_fold_iff {op : Fold} {target : String} {tokens : List String} :
    (fold op).arity.accepts (target :: tokens).length = true ↔
      1 ≤ tokens.length ∧ tokens.length ≤ 15 := by
  show (decide (2 ≤ tokens.length + 1) && decide (tokens.length + 1 ≤ 16)) = true ↔ _
  rw [Bool.and_eq_true, decide_eq_true_eq, decide_eq_true_eq]
  omega

theorem run_of_accepts_fold {op : Fold} {target : String} {tokens : List String}
    (hn : 1 ≤ tokens.length ∧ tokens.length ≤ 15) (context : Context) :
    (fold op).run (target :: tokens) context =
      match planFold op context.registers target tokens with
      | .ok effect => .ok () (effect.apply context)
      | .error cause => .error cause context := by
  have ha : (fold op).arity.accepts (target :: tokens).length = true := accepts_fold_iff.mpr hn
  have hp : (fold op).plan (target :: tokens) context.registers =
      planFold op context.registers target tokens := by
    unfold plan Arity.check
    rw [ha]
    rfl
  cases h : planFold op context.registers target tokens with
  | ok effect => simp only [run_eq_plan, hp, h]
  | error cause => simp only [run_eq_plan, hp, h]

/-- Once the number of operands is right, the instruction is the computation that it stands for. -/
theorem run_eq_computation {op : Fold} {tokens : List String}
    (hn : 1 ≤ tokens.length ∧ tokens.length ≤ 15) (target : String) (context : Context) :
    (fold op).run (target :: tokens) context = op.computation.run target tokens context := by
  have hp := planFold_eq op context.registers target tokens
  cases h : op.computation.plan context.registers target tokens with
  | ok effect => simp only [run_of_accepts_fold hn, Computation.run_eq_plan, hp, h]
  | error cause => simp only [run_of_accepts_fold hn, Computation.run_eq_plan, hp, h]

/-- What a folding instruction has found when it succeeds. -/
theorem denoted_of_run_fold {op : Fold} {context after : Context} {target : String}
    {tokens : List String} (h : (fold op).run (target :: tokens) context = .ok () after) :
    (1 ≤ tokens.length ∧ tokens.length ≤ 15) ∧
      ∃ seed words, context.registers.read? op.kind target = some seed ∧
        List.Forall₂ (context.registers.Denotes op.kind) tokens words := by
  have hn : 1 ≤ tokens.length ∧ tokens.length ≤ 15 := by
    obtain ⟨effect, hp, -⟩ := run_eq_ok h
    cases ha : (fold op).arity.accepts (target :: tokens).length with
    | false => rw [plan_of_not_accepts ha] at hp; cases hp
    | true => exact accepts_fold_iff.mp ha
  rw [run_eq_computation hn] at h
  obtain ⟨seed, words, -, hs, hw, -, -⟩ := Computation.run_eq_ok_iff.mp h
  exact ⟨hn, seed, words, hs, Bank.resolveAll_eq_ok_iff.mp hw⟩

/-! Where the destination is there and all operands denote words, the fold of the words decides. -/

section Denoted

variable {op : Fold} {context : Context} {target : String} {tokens tokens' : List String}
  {seed : op.kind.Word} {words : List op.kind.Word}

theorem run_of_denoted (hn : 1 ≤ tokens.length ∧ tokens.length ≤ 15)
    (present : context.registers.read? op.kind target = some seed)
    (denoted : List.Forall₂ (context.registers.Denotes op.kind) tokens words) :
    (fold op).run (target :: tokens) context =
      match words.foldlM op.step seed with
      | some result => .ok () { context with
          registers := context.registers.write target (.ofWord op.kind result) }
      | none => .error (.divisionByZero target) context := by
  rw [run_of_accepts_fold hn, Fold.planFold_of_denoted present denoted]
  cases words.foldlM op.step seed with
  | none => rfl
  | some result => rfl

theorem run_of_foldlM_eq_some (hn : 1 ≤ tokens.length ∧ tokens.length ≤ 15)
    (present : context.registers.read? op.kind target = some seed)
    (denoted : List.Forall₂ (context.registers.Denotes op.kind) tokens words)
    {result : op.kind.Word} (h : words.foldlM op.step seed = some result) :
    (fold op).run (target :: tokens) context = .ok () { context with
      registers := context.registers.write target (.ofWord op.kind result) } := by
  rw [run_of_denoted hn present denoted, h]

theorem run_of_foldlM_eq_none (hn : 1 ≤ tokens.length ∧ tokens.length ≤ 15)
    (present : context.registers.read? op.kind target = some seed)
    (denoted : List.Forall₂ (context.registers.Denotes op.kind) tokens words)
    (h : words.foldlM op.step seed = none) :
    (fold op).run (target :: tokens) context = .error (.divisionByZero target) context := by
  rw [run_of_denoted hn present denoted, h]

/-- The order of the operands is irrelevant where it is irrelevant to the fold of their words. -/
theorem run_fold_perm (hn : 1 ≤ tokens.length ∧ tokens.length ≤ 15)
    (present : context.registers.read? op.kind target = some seed)
    (denoted : List.Forall₂ (context.registers.Denotes op.kind) tokens words)
    (p : tokens.Perm tokens')
    (hfold : ∀ words', words.Perm words' →
      words.foldlM op.step seed = words'.foldlM op.step seed) :
    (fold op).run (target :: tokens') context = (fold op).run (target :: tokens) context := by
  obtain ⟨words', denoted', hp⟩ := List.perm_comp_forall₂ p.symm denoted
  have hn' : 1 ≤ tokens'.length ∧ tokens'.length ≤ 15 := by
    rw [← p.length_eq]
    exact hn
  rw [run_of_denoted hn present denoted, run_of_denoted hn' present denoted', hfold words' hp.symm]

end Denoted

/-- A folding instruction with one to fifteen operands succeeds exactly when its destination is a
register of its kind, every operand denotes a word of that kind and no divisor is zero, and then the
destination holds the left fold of the words.  Otherwise nothing changes, and the first of these
conditions that fails gives the refusal. -/
theorem run_fold (op : Fold) (context : Context) (target : String) (tokens : List String)
    (hn : 1 ≤ tokens.length ∧ tokens.length ≤ 15) :
    let b := context.registers
    (∀ after, (fold op).run (target :: tokens) context = .ok () after ↔
      ∃ seed words, b.read? op.kind target = some seed ∧
        List.Forall₂ (b.Denotes op.kind) tokens words ∧ (op.Divides → op.kind.zero ∉ words) ∧
        after = { context with
          registers := b.write target (.ofWord op.kind (words.foldl op.combine seed)) }) ∧
    ∀ cause after, (fold op).run (target :: tokens) context = .error cause after ↔
      op.Refusal b target tokens cause ∧ after = context := by
  intro b
  rw [run_of_accepts_fold hn]
  have hdefined {seed : op.kind.Word} {words : List op.kind.Word}
      (h : op.Defined b target tokens seed words) : planFold op b target tokens =
        .ok (.store target (.ofWord op.kind (words.foldl op.combine seed))) := h.plan
  have hrefusal {cause : Cause} (h : op.Refusal b target tokens cause) :
      planFold op b target tokens = .error cause := h.plan
  refine ⟨fun after => ⟨fun h => ?_, ?_⟩, fun cause after => ⟨fun h => ?_, ?_⟩⟩
  · obtain ⟨seed, words, hd⟩ | ⟨cause, hr⟩ := op.defined_or_refusal b target tokens
    · rw [hdefined hd] at h
      cases h
      exact ⟨seed, words, hd.present, hd.denoted, hd.nonzero, rfl⟩
    · rw [hrefusal hr] at h
      cases h
  · rintro ⟨seed, words, present, denoted, nonzero, rfl⟩
    rw [hdefined ⟨present, denoted, nonzero⟩]
    rfl
  · obtain ⟨seed, words, hd⟩ | ⟨cause', hr⟩ := op.defined_or_refusal b target tokens
    · rw [hdefined hd] at h
      cases h
    · rw [hrefusal hr] at h
      cases h
      exact ⟨hr, rfl⟩
  · rintro ⟨hr, rfl⟩
    rw [hrefusal hr]

/-- The operand that names a number of the other kind is refused, not the zero in front of it. -/
theorem run_fold_operand_after_zero :
    let b := Bank.ofPoints [("a", .int 7), ("f", .float 1)]
    let context : Context := { registers := b }
    (1 ≤ ["0", "f"].length ∧ ["0", "f"].length ≤ 15) ∧
      (fold (.int .div)).run ["a", "0", "f"] context =
        .error (.noSuchRegister .int "f") context := by
  intro b context
  have hseed : b.read? .int "a" = some (7 : Int64) := by decide +kernel
  have hzero : b.Denotes .int "0" (0 : Int64) := .literal (by decide +kernel) (by decide +kernel)
  have hother : b.Refuses .int "f" (.noSuchRegister .int "f") :=
    .otherKind (by decide +kernel) (by decide +kernel)
  have hsplit : ["0", "f"] = ["0"] ++ "f" :: [] := rfl
  have hrefusal : Fold.Refusal (.int .div) b "a" ["0", "f"] (.noSuchRegister .int "f") :=
    .operand hseed hsplit (fun t ht => List.mem_singleton.mp ht ▸ ⟨_, hzero⟩) hother
  have hrun := run_fold (.int .div) context "a" ["0", "f"] (by decide)
  exact ⟨by decide, (hrun.2 _ _).mpr ⟨hrefusal, rfl⟩⟩

end Builtin
end RegisterMachine
