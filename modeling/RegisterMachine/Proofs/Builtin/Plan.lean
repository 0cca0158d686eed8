import RegisterMachine.Builtin.Basic
import RegisterMachine.Proofs.Bank.Agree

/-!
# The plan of an instruction

All families of instructions proceed in one order: the destination is read, the operands are
resolved from left to right, and the result is computed.  A `Computation` is what remains to be
said of an instruction beside this order.  `plan_of_accepts` brings every plan into the one form of
`Computation.plan`, so that what is proved there holds of the whole instruction set.  A plan that
succeeds has found its destination, so the check of the commit never refuses it.
-/

namespace RegisterMachine

/-- The context after an effect that nothing refuses. -/
def Builtin.Effect.apply : Builtin.Effect → Context → Context
  | idle, context => context
  | halt, context => { context with halting := true }
  | store name value, context => { context with registers := context.registers.write name value }

theorem Builtin.Effect.commit_store {context : Context} {name : String} {v : Value}
    (h : context.registers.contains v.kind name = true) :
    (store name v).commit context = .ok ((store name v).apply context) := by
  simp only [commit, Bank.set, if_pos h]
  rfl

/-- The kind of the destination, the kind of the operands after it, and the result from the contents
of the one and the words of the others; `none` where there is no result. -/
structure Computation where
  target : Kind
  source : Kind
  result? : target.Word → List source.Word → Option target.Word

namespace Computation

def plan (c : Computation) (b : Bank) (target : String) (tokens : List String) :
    Except Cause Builtin.Effect := do
  let seed ← b.destination c.target target
  let words ← b.resolveAll c.source tokens
  match c.result? seed words with
  | some result => .ok (.store target (.ofWord c.target result))
  | none => .error (.divisionByZero target)

def run (c : Computation) (target : String) (tokens : List String) : Action := fun context =>
  match c.plan context.registers target tokens >>= fun effect => effect.commit context with
  | .ok after => .ok () after
  | .error cause => .error cause context

/-- What a plan needs in order to succeed, and what it then stores. -/
theorem plan_eq_ok_iff {c : Computation} {b : Bank} {target : String} {tokens : List String}
    {effect : Builtin.Effect} :
    c.plan b target tokens = .ok effect ↔
      ∃ seed words result, b.read? c.target target = some seed ∧
        b.resolveAll c.source tokens = .ok words ∧ c.result? seed words = some result ∧
        effect = .store target (.ofWord c.target result) := by
  constructor
  · intro h
    unfold plan at h
    cases hd : b.destination c.target target with
    | error cause => rw [hd] at h; cases h
    | ok seed =>
      cases hr : b.resolveAll c.source tokens with
      | error cause => rw [hd, hr] at h; cases h
      | ok words =>
        simp only [hd, hr, bind, Except.bind] at h
        cases hw : c.result? seed words with
        | none => rw [hw] at h; cases h
        | some result =>
          rw [hw] at h
          cases h
          exact ⟨seed, words, result, Bank.destination_eq_ok_iff.mp hd, rfl, hw, rfl⟩
  · rintro ⟨seed, words, result, hd, hr, hw, rfl⟩
    unfold plan
    rw [Bank.destination_eq_ok_iff.mpr hd, hr]
    simp only [bind, Except.bind, hw]

/-- A plan that succeeds writes a register that is there. -/
theorem plan_eq_ok {c : Computation} {b : Bank} {target : String} {tokens : List String}
    {effect : Builtin.Effect} (h : c.plan b target tokens = .ok effect) :
    b.contains c.target target = true ∧
      ∃ w, effect = .store target (.ofWord c.target w) := by
  obtain ⟨seed, words, result, hd, -, -, rfl⟩ := plan_eq_ok_iff.mp h
  refine ⟨?_, result, rfl⟩
  rw [Bank.contains_eq_isSome, hd]
  rfl

theorem commit_of_plan {c : Computation} {context : Context} {target : String}
    {tokens : List String} {effect : Builtin.Effect}
    (h : c.plan context.registers target tokens = .ok effect) :
    effect.commit context = .ok (effect.apply context) := by
  obtain ⟨hc, w, rfl⟩ := plan_eq_ok h
  apply Builtin.Effect.commit_store
  simpa using hc

/-- A computation is refused by its plan or not at all. -/
theorem run_eq_plan (c : Computation) (target : String) (tokens : List String)
    (context : Context) :
    c.run target tokens context =
      match c.plan context.registers target tokens with
      | .ok effect => .ok () (effect.apply context)
      | .error cause => .error cause context := by
  unfold run
  cases hp : c.plan context.registers target tokens with
  | error cause => rfl
  | ok effect => simp only [bind, Except.bind, commit_of_plan hp]

theorem run_eq_ok_iff {c : Computation} {target : String} {tokens : List String}
    {context after : Context} :
    c.run target tokens context = .ok () after ↔
      ∃ seed words result, context.registers.read? c.target target = some seed ∧
        context.registers.resolveAll c.source tokens = .ok words ∧
        c.result? seed words = some result ∧
        after = { context with
          registers := context.registers.write target (.ofWord c.target result) } := by
  rw [run_eq_plan]
  constructor
  · intro h
    cases hp : c.plan context.registers target tokens with
    | error cause => rw [hp] at h; cases h
    | ok effect =>
      rw [hp] at h
      cases h
      obtain ⟨seed, words, result, hd, hr, hw, rfl⟩ := plan_eq_ok_iff.mp hp
      exact ⟨seed, words, result, hd, hr, hw, rfl⟩
  · rintro ⟨seed, words, result, hd, hr, hw, rfl⟩
    rw [plan_eq_ok_iff.mpr ⟨seed, words, result, hd, hr, hw, rfl⟩]
    rfl

end Computation

def Fold.computation (op : Fold) : Computation :=
  ⟨op.kind, op.kind, fun seed words => words.foldlM op.step seed⟩

def Relation.computation (r : Relation) (k : Kind) : Computation :=
  ⟨.int, k, fun _ words =>
    match words with
    | [x, y] => some (if r.holds k x y then 1 else 0)
    | _ => none⟩

def Transfer.computation (t : Transfer) : Computation :=
  ⟨t.target, t.source, fun _ words => words.head?.map t.convert⟩

def Unary.computation (op : Unary) (k : Kind) : Computation :=
  ⟨k, k, fun w _ => some (op.apply k w)⟩

namespace Builtin

/-- What the instruction computes.  The control instructions compute nothing. -/
def computation? : Builtin → Option Computation
  | fold op => some op.computation
  | compare k r => some (r.computation k)
  | transfer t => some t.computation
  | unary k op => some (op.computation k)
  | nop => none
  | halt => none

def kinds? : Builtin → Option (Kind × Kind)
  | fold op => some (op.kind, op.kind)
  | compare k _ => some (.int, k)
  | transfer t => some (t.target, t.source)
  | unary k _ => some (k, k)
  | nop => none
  | halt => none

theorem kinds?_eq (i : Builtin) :
    i.kinds? = i.computation?.map fun c => (c.target, c.source) := by
  cases i <;> rfl

def control (i : Builtin) : Effect :=
  if i = halt then .halt else .idle

theorem planFold_eq (op : Fold) (b : Bank) (target : String) (tokens : List String) :
    planFold op b target tokens = op.computation.plan b target tokens := by
  simp only [planFold, Computation.plan, Fold.computation]
  cases b.destination op.kind target with
  | error cause => rfl
  | ok seed =>
    cases b.resolveAll op.kind tokens with
    | error cause => rfl
    | ok words =>
      -- The two sides ask for the result in different ways, so it has to be split as well.
      simp only [bind, Except.bind]
      cases words.foldlM op.step seed with
      | none => rfl
      | some result => rfl

theorem planCompare_eq (k : Kind) (r : Relation) (b : Bank) (target left right : String) :
    planCompare k r b target left right = (r.computation k).plan b target [left, right] := by
  simp only [planCompare, Computation.plan, Relation.computation, Bank.resolveAll,
    List.mapM_cons, List.mapM_nil]
  cases b.destination .int target with
  | error cause => rfl
  | ok w =>
    cases b.resolve k left with
    | error cause => rfl
    | ok x =>
      cases b.resolve k right with
      | error cause => rfl
      | ok y => rfl

theorem planTransfer_eq (t : Transfer) (b : Bank) (target source : String) :
    planTransfer t b target source = t.computation.plan b target [source] := by
  simp only [planTransfer, Computation.plan, Transfer.computation, Bank.resolveAll,
    List.mapM_cons, List.mapM_nil]
  cases b.destination t.target target with
  | error cause => rfl
  | ok w =>
    cases b.resolve t.source source with
    | error cause => rfl
    | ok x => rfl

theorem planUnary_eq (k : Kind) (op : Unary) (b : Bank) (target : String) :
    planUnary k op b target = (op.computation k).plan b target [] := by
  simp only [planUnary, Computation.plan, Unary.computation, Bank.resolveAll, List.mapM_nil]
  cases b.destination k target with
  | error cause => rfl
  | ok w => rfl

theorem plan_of_not_accepts {i : Builtin} {operands : List String}
    (h : i.arity.accepts operands.length = false) (b : Bank) :
    i.plan operands b = .error (i.arity.mismatch i.opcode operands.length) := by
  unfold plan Arity.check
  rw [h]
  rfl

/-- Once their number is accepted, the operands start with a destination where the instruction
computes something, and there are none where it does not. -/
theorem plan_of_accepts {i : Builtin} {operands : List String}
    (h : i.arity.accepts operands.length = true) :
    (i.computation? = none ∧ operands = [] ∧ ∀ b, i.plan operands b = .ok i.control) ∨
      ∃ c target tokens, i.computation? = some c ∧ operands = target :: tokens ∧
        ∀ b, i.plan operands b = c.plan b target tokens := by
  unfold plan Arity.check
  rw [h]
  cases i with
  | fold op =>
    match operands, h with
    | target :: tokens, _ =>
      exact .inr ⟨_, target, tokens, rfl, rfl, fun b => planFold_eq op b target tokens⟩
  | compare k r =>
    match operands, h with
    | [target, left, right], _ =>
      exact .inr ⟨_, target, [left, right], rfl, rfl,
        fun b => planCompare_eq k r b target left right⟩
  | transfer t =>
    match operands, h with
    | [target, source], _ =>
      exact .inr ⟨_, target, [source], rfl, rfl, fun b => planTransfer_eq t b target source⟩
  | unary k op =>
    match operands, h with
    | [target], _ => exact .inr ⟨_, target, [], rfl, rfl, fun b => planUnary_eq k op b target⟩
  | nop =>
    match operands, h with
    | [], _ => exact .inl ⟨rfl, rfl, fun _ => rfl⟩
  | halt =>
    match operands, h with
    | [], _ => exact .inl ⟨rfl, rfl, fun _ => rfl⟩

/-- What a plan that succeeds will do. -/
theorem plan_eq_ok {i : Builtin} {operands : List String} {b : Bank} {effect : Effect}
    (h : i.plan operands b = .ok effect) :
    (i.kinds? = none ∧ effect = i.control) ∨
      ∃ k source target tokens w, i.kinds? = some (k, source) ∧ operands = target :: tokens ∧
        b.contains k target = true ∧ effect = .store target (.ofWord k w) := by
  cases ha : i.arity.accepts operands.length with
  | false => rw [plan_of_not_accepts ha] at h; cases h
  | true =>
    obtain ⟨hc, -, hp⟩ | ⟨c, target, tokens, hc, rfl, hp⟩ := plan_of_accepts ha
    · rw [hp] at h
      cases h
      exact .inl ⟨by rw [kinds?_eq, hc]; rfl, rfl⟩
    · rw [hp] at h
      obtain ⟨ht, w, rfl⟩ := Computation.plan_eq_ok h
      exact .inr ⟨c.target, c.source, target, tokens, w, by rw [kinds?_eq, hc]; rfl, rfl, ht, rfl⟩

theorem commit_of_plan {i : Builtin} {operands : List String} {context : Context} {effect : Effect}
    (h : i.plan operands context.registers = .ok effect) :
    effect.commit context = .ok (effect.apply context) := by
  obtain ⟨-, rfl⟩ | ⟨k, source, target, tokens, w, -, -, hc, rfl⟩ := plan_eq_ok h
  · unfold control
    by_cases hi : i = halt
    · rw [if_pos hi]; rfl
    · rw [if_neg hi]; rfl
  · apply Effect.commit_store
    simpa using hc

/-- An instruction is refused by its plan or not at all. -/
theorem run_eq_plan (i : Builtin) (operands : List String) (context : Context) :
    i.run operands context =
      match i.plan operands context.registers with
      | .ok effect => .ok () (effect.apply context)
      | .error cause => .error cause context := by
  unfold run
  cases hp : i.plan operands context.registers with
  | error cause => rfl
  | ok effect => simp only [bind, Except.bind, commit_of_plan hp]

/-! ## Plans look at the operands alone -/

section Agree

variable {names : List String} {b b' : Bank}

theorem plan_congr (h : Bank.Agree names b b') (i : Builtin) {operands : List String}
    (ho : operands ⊆ names) : i.plan operands b = i.plan operands b' := by
  cases ha : i.arity.accepts operands.length with
  | false => rw [plan_of_not_accepts ha, plan_of_not_accepts ha]
  | true =>
    obtain ⟨-, -, hp⟩ | ⟨c, target, tokens, -, rfl, hp⟩ := plan_of_accepts ha
    · rw [hp b, hp b']
    · have htarget : target ∈ names := ho List.mem_cons_self
      have htokens : tokens ⊆ names := fun t hm => ho (List.mem_cons_of_mem target hm)
      rw [hp b, hp b', Computation.plan, Computation.plan, h.destination htarget,
        h.resolveAll htokens]

theorem Effect.apply_agree (h : Bank.Agree names b b') (effect : Effect) :
    Bank.Agree names (effect.apply { registers := b }).registers
      (effect.apply { registers := b' }).registers := by
  cases effect with
  | idle => exact h
  | halt => exact h
  | store name value => exact h.write name value

theorem Effect.apply_halting (effect : Effect) (b b' : Bank) :
    (effect.apply { registers := b }).halting = (effect.apply { registers := b' }).halting := by
  cases effect <;> rfl

end Agree
end Builtin
end RegisterMachine
