import RegisterMachine.Proofs.Builtin.Commit
import RegisterMachine.Proofs.Machine.Run

/-!
# Faults that can be foretold

Which names a bank declares, and with which kinds, never changes while a machine with the built-in
operators runs.  An instruction can therefore be checked before the run: `Naming.check` looks at the
opcode, at the number of operands, at the destination and at the operands from left to right, and
gives the first refusal.  On every machine with that naming the dispatch of the instruction fails
with exactly this refusal, whatever the registers hold, and an instruction that passes can fail by a
division by zero only.
-/

namespace RegisterMachine

abbrev Naming : Type :=
  String → Option Kind

def Bank.naming (b : Bank) : Naming :=
  b.kindOf?

namespace Naming

def checkTarget (K : Naming) (k : Kind) (token : String) : Except Cause Unit :=
  if K token = some k then .ok () else .error (.noSuchRegister k token)

/-- An operand is a register of the kind that is read, or it is no register at all and a literal of
that kind. -/
def checkOperand (K : Naming) (k : Kind) (token : String) : Except Cause Unit :=
  match K token with
  | some declared => if declared = k then .ok () else .error (.noSuchRegister k token)
  | none =>
    if (Literal.word? k token).isSome then .ok () else .error (.unresolvedOperand k token)

/-- The destination is checked first and then the operands, from left to right. -/
def checkKinds (K : Naming) (b : Builtin) (operands : List String) : Except Cause Unit :=
  match b.kinds?, operands with
  | some (k, source), target :: tokens => do
    K.checkTarget k target
    forM tokens (K.checkOperand source)
  | _, _ => .ok ()

/-- The first refusal of an instruction that can be told from the naming alone. -/
def check (K : Naming) (i : Instruction) : Except Cause Unit :=
  match Builtin.ofOpcode? i.opcode with
  | none => .error (.unknownOpcode i.opcode)
  | some b => do
    b.arity.check i.opcode i.operands.length
    K.checkKinds b i.operands

/-! A check looks at no contents, so it never refuses a division. -/

section

variable {register : String}

theorem bind_ne_error {c : Cause} {x y : Except Cause Unit} (hx : x ≠ .error c)
    (hy : y ≠ .error c) : (x >>= fun _ => y) ≠ .error c := by
  cases x with
  | error cause => exact hx
  | ok u => exact hy

theorem checkTarget_ne_division (K : Naming) (k : Kind) (token : String) :
    K.checkTarget k token ≠ .error (.divisionByZero register) := by
  unfold checkTarget
  by_cases h : K token = some k <;> simp [h]

theorem checkOperand_ne_division (K : Naming) (k : Kind) (token : String) :
    K.checkOperand k token ≠ .error (.divisionByZero register) := by
  unfold checkOperand
  cases K token with
  | some declared => by_cases h : declared = k <;> simp [h]
  | none => cases (Literal.word? k token).isSome <;> simp

theorem forM_checkOperand_ne_division (K : Naming) (k : Kind) (tokens : List String) :
    forM tokens (K.checkOperand k) ≠ .error (.divisionByZero register) := by
  induction tokens with
  | nil => exact fun h => nomatch h
  | cons token rest ih =>
    rw [List.forM_cons]
    exact bind_ne_error (K.checkOperand_ne_division k token) ih

theorem checkKinds_ne_division (K : Naming) (b : Builtin) (operands : List String) :
    K.checkKinds b operands ≠ .error (.divisionByZero register) := by
  unfold checkKinds
  match b.kinds?, operands with
  | some (k, source), target :: tokens =>
    exact bind_ne_error (K.checkTarget_ne_division k target)
      (K.forM_checkOperand_ne_division source tokens)
  | some _, [] => simp
  | none, _ => simp

theorem check_ne_division (K : Naming) (i : Instruction) :
    K.check i ≠ .error (.divisionByZero register) := by
  unfold check
  cases Builtin.ofOpcode? i.opcode with
  | none => simp
  | some b =>
    refine bind_ne_error ?_ (K.checkKinds_ne_division b i.operands)
    unfold Arity.check Arity.mismatch
    cases b.arity.accepts i.operands.length <;> simp

end

end Naming

/-! ## Reading registers

Forgetting the word that is read leaves the check. -/

namespace Bank

theorem destination_check (b : Bank) (k : Kind) (token : String) :
    (b.destination k token).map (fun _ => ()) = b.naming.checkTarget k token := by
  simp only [destination, Naming.checkTarget, naming, kindOf?_eq_some_iff, contains_eq_isSome]
  cases b.read? k token with
  | none => rfl
  | some w => rfl

theorem resolve_check (b : Bank) (k : Kind) (token : String) :
    (b.resolve k token).map (fun _ => ()) = b.naming.checkOperand k token := by
  unfold resolve Operand.classify Naming.checkOperand naming
  cases hk : b.kindOf? token with
  | none =>
    have hn (k' : Kind) : b.contains k' token = false := by
      rw [Bool.eq_false_iff, ne_eq, ← kindOf?_eq_some_iff, hk]
      exact fun h => nomatch h
    simp only [hn]
    cases Literal.word? k token with
    | none => rfl
    | some w => rfl
  | some declared =>
    have hc := kindOf?_eq_some_iff.mp hk
    by_cases he : declared = k
    · subst he
      simp only [hc, if_pos]
      show (b.destination declared token).map (fun _ => ()) = _
      rw [destination_check, Naming.checkTarget, naming, if_pos hk]
    · obtain rfl : declared = k.other := by cases declared <;> cases k <;> simp_all [Kind.other]
      have hn : b.contains k token = false := by simpa using contains_other hc
      simp only [hc, hn, if_neg he]
      rfl

theorem resolveAll_check (b : Bank) (k : Kind) (tokens : List String) :
    (b.resolveAll k tokens).map (fun _ => ()) = forM tokens (b.naming.checkOperand k) := by
  unfold resolveAll
  induction tokens with
  | nil => rfl
  | cons token rest ih =>
    rw [List.forM_cons, ← resolve_check, ← ih, List.mapM_cons]
    cases b.resolve k token with
    | error cause => rfl
    | ok w =>
      cases rest.mapM (b.resolve k) with
      | error cause => rfl
      | ok words => rfl

theorem resolveAll_length {b : Bank} {k : Kind} {tokens : List String} {words : List k.Word}
    (h : b.resolveAll k tokens = .ok words) : words.length = tokens.length := by
  unfold resolveAll at h
  induction tokens generalizing words with
  | nil => cases h; rfl
  | cons token rest ih =>
    rw [List.mapM_cons] at h
    cases hw : b.resolve k token with
    | error cause => rw [hw] at h; cases h
    | ok w =>
      cases hr : rest.mapM (b.resolve k) with
      | error cause => rw [hw, hr] at h; cases h
      | ok ws =>
        rw [hw, hr] at h
        cases h
        rw [List.length_cons, List.length_cons, ih hr]

end Bank

/-! ## Plans -/

/-- What a check says of the result of an instruction: a refusal is the result, and what passes
succeeds or divides by zero. -/
inductive Foretold {α : Type} (opcode : String) (operands : List String) :
    Except Cause Unit → Except Cause α → Prop
  | refused (cause : Cause) : Foretold opcode operands (.error cause) (.error cause)
  | accepted (a : α) : Foretold opcode operands (.ok ()) (.ok a)
  | division {target : String} (first : operands.head? = some target)
      (name : opcode = "DIV" ∨ opcode = "MOD") :
      Foretold opcode operands (.ok ()) (.error (.divisionByZero target))

theorem Foretold.map {α β : Type} {opcode : String} {operands : List String}
    {checked : Except Cause Unit} {result : Except Cause α}
    (h : Foretold opcode operands checked result) (f : α → β) :
    Foretold opcode operands checked (result.map f) := by
  cases h with
  | refused cause => exact .refused cause
  | accepted a => exact .accepted (f a)
  | division first name => exact .division first name

theorem Computation.plan_check (c : Computation) (b : Bank) (target : String)
    (tokens : List String) :
    let checked := b.naming.checkTarget c.target target >>= fun _ =>
      forM tokens (b.naming.checkOperand c.source)
    (∃ cause, checked = .error cause ∧ c.plan b target tokens = .error cause) ∨
    checked = .ok () ∧ ∃ seed words, words.length = tokens.length ∧
      c.plan b target tokens =
        match c.result? seed words with
        | some result => .ok (.store target (.ofWord c.target result))
        | none => .error (.divisionByZero target) := by
  simp only [plan, ← Bank.destination_check, ← Bank.resolveAll_check]
  cases b.destination c.target target with
  | error cause => exact .inl ⟨cause, rfl, rfl⟩
  | ok seed =>
    cases hr : b.resolveAll c.source tokens with
    | error cause => exact .inl ⟨cause, rfl, rfl⟩
    | ok words => exact .inr ⟨rfl, seed, words, Bank.resolveAll_length hr, rfl⟩

theorem foldlM_ne_none {α β : Type} {f : α → β → Option α} (h : ∀ a b, f a b ≠ none)
    (bs : List β) (a : α) : bs.foldlM f a ≠ none := by
  induction bs generalizing a with
  | nil => exact Option.some_ne_none a
  | cons b rest ih =>
    obtain ⟨a', ha⟩ := Option.ne_none_iff_exists'.mp (h a b)
    rw [List.foldlM_cons, ha]
    exact ih a'

namespace Builtin

/-- Only the integer divisions can be without a result. -/
theorem result?_eq_none {i : Builtin} {c : Computation} (hc : i.computation? = some c)
    {seed : c.target.Word} {words : List c.source.Word}
    (ha : i.arity.accepts (words.length + 1) = true) (h : c.result? seed words = none) :
    i.opcode = "DIV" ∨ i.opcode = "MOD" := by
  cases i with
  | fold op =>
    cases hc
    cases op with
    | int op =>
      cases op with
      | div => exact .inl rfl
      | mod => exact .inr rfl
      | _ => exact absurd h (foldlM_ne_none (fun _ _ => Option.some_ne_none _) words seed)
    | float op => exact absurd h (foldlM_ne_none (fun _ _ => Option.some_ne_none _) words seed)
  | compare k r =>
    cases hc
    match words, ha with
    | [x, y], _ => cases h
  | transfer t =>
    cases hc
    match words, ha with
    | [w], _ => cases h
  | unary k op =>
    cases hc
    cases h
  | nop => cases hc
  | halt => cases hc

theorem plan_foretold {i : Builtin} {operands : List String}
    (ha : i.arity.accepts operands.length = true) (b : Bank) :
    Foretold i.opcode operands (b.naming.checkKinds i operands) (i.plan operands b) := by
  unfold Naming.checkKinds
  obtain ⟨hc, -, hp⟩ | ⟨c, target, tokens, hc, rfl, hp⟩ := plan_of_accepts ha
  · rw [kinds?_eq, hc, hp]
    exact .accepted _
  · rw [kinds?_eq, hc, hp]
    show Foretold _ _ (b.naming.checkTarget c.target target >>= fun _ =>
      forM tokens (b.naming.checkOperand c.source)) _
    obtain ⟨cause, hk, hf⟩ | ⟨hk, seed, words, hl, hf⟩ := c.plan_check b target tokens
    · rw [hk, hf]
      exact .refused cause
    · rw [hk, hf]
      cases hw : c.result? seed words with
      | some result => exact .accepted _
      | none =>
        have hn : i.arity.accepts (words.length + 1) = true := by
          rw [hl]
          exact ha
        exact .division rfl (result?_eq_none hc hn hw)

end Builtin

/-! ## Machines -/

namespace Machine

def FaultsWith (m : Machine) (i : Instruction) (cause : Cause) : Prop :=
  (m.dispatch i).2 = .faulted ∧ (m.dispatch i).1.status = .errored ⟨i.opcode, i.line, cause⟩

theorem faultsWith_iff {m : Machine} (hs : m.status = .running) {i : Instruction}
    {cause : Cause} : m.FaultsWith i cause ↔ (m.execute i).2 = .error cause := by
  unfold FaultsWith
  obtain ⟨m', he, hd⟩ | ⟨m', he, hd⟩ | ⟨m', cause', he, hd⟩ := dispatch_of_running hs i <;>
    simp [he, hd]

variable {m : Machine}

theorem execute_foretold (hm : m.operators = .builtins) (i : Instruction) :
    Foretold i.opcode i.operands (m.registers.naming.check i) (m.execute i).2 := by
  unfold Naming.check
  obtain ⟨hb, he⟩ | ⟨b, hb, ⟨ha, he⟩ | ⟨ha, ho⟩⟩ := execute_of_builtins hm i
  · rw [hb, he]
    exact .refused _
  · simp only [hb, Arity.check, ha, he]
    exact .refused _
  · have hn : b.opcode = i.opcode := Builtin.opcode_of_ofOpcode? hb
    have hp := (Builtin.plan_foretold ha m.registers).map fun effect =>
      (effect.apply { registers := m.registers }).halting
    simp only [hb, Arity.check, ha]
    rw [hn, ← execute_result ho] at hp
    exact hp

theorem dispatch_naming (hm : m.operators = .builtins) (i : Instruction) :
    (m.dispatch i).1.registers.naming = m.registers.naming := by
  funext name
  exact Bank.kindOf?_congr fun k => (dispatch_sameBut hm i).names k name

theorem dispatchAll_naming (hm : m.operators = .builtins) (is : List Instruction) :
    (m.dispatchAll is).1.registers.naming = m.registers.naming := by
  induction is generalizing m with
  | nil => rfl
  | cons i rest ih =>
    have ho : (m.dispatch i).1.operators = .builtins := by simp [hm]
    exact (ih ho).trans (dispatch_naming hm i)

theorem check_eq_error_iff (hm : m.operators = .builtins) (hs : m.status = .running)
    {i : Instruction} {cause : Cause} :
    m.registers.naming.check i = .error cause ↔
      m.FaultsWith i cause ∧ ∀ register, cause ≠ .divisionByZero register := by
  rw [faultsWith_iff hs]
  have hf := execute_foretold hm i
  constructor
  · intro hc
    refine ⟨?_, fun register e => m.registers.naming.check_ne_division i (e ▸ hc)⟩
    rw [hc] at hf
    -- The cases of `Foretold` are told apart only when its result is a variable.
    generalize (m.execute i).2 = result at hf ⊢
    cases hf
    rfl
  · rintro ⟨he, hn⟩
    rw [he] at hf
    generalize m.registers.naming.check i = checked at hf ⊢
    cases hf with
    | refused => rfl
    | division first name => exact absurd rfl (hn _)

theorem faultsWith_division (hm : m.operators = .builtins) (hs : m.status = .running)
    {i : Instruction} {register : String} (h : m.FaultsWith i (.divisionByZero register)) :
    i.operands.head? = some register ∧ (i.opcode = "DIV" ∨ i.opcode = "MOD") := by
  have hf := execute_foretold hm i
  rw [(faultsWith_iff hs).mp h] at hf
  generalize hc : m.registers.naming.check i = checked at hf
  cases hf with
  | refused => exact absurd hc (m.registers.naming.check_ne_division i)
  | division first name => exact ⟨first, name⟩

/-- An instruction that passes the check and does not divide stops no machine with a fault. -/
theorem dispatch_not_errored (hm : m.operators = .builtins) {i : Instruction}
    (hc : m.registers.naming.check i = .ok ()) (hi : i.opcode ≠ "DIV" ∧ i.opcode ≠ "MOD")
    (hs : ∀ fault, m.status ≠ .errored fault) (fault : Fault) :
    (m.dispatch i).1.status ≠ .errored fault := by
  by_cases hr : m.status = .running
  · obtain ⟨m', -, hd⟩ | ⟨m', -, hd⟩ | ⟨m', cause, he, -⟩ := dispatch_of_running hr i
    · have hx : (m.dispatch i).1.status = .running := by
        rw [← dispatch_eq_executed_iff, hd]
      rw [hx]
      exact fun e => nomatch e
    · rw [hd]
      exact fun e => nomatch e
    · have hf := execute_foretold hm i
      rw [hc, he] at hf
      cases hf with
      | division first name => exact absurd name (not_or.mpr hi)
  · rw [dispatch_of_stopped hr]
    exact hs fault

theorem dispatchAll_not_errored (hm : m.operators = .builtins) {is : List Instruction}
    (hi : ∀ i ∈ is, m.registers.naming.check i = .ok () ∧ i.opcode ≠ "DIV" ∧ i.opcode ≠ "MOD")
    (hs : ∀ fault, m.status ≠ .errored fault) (fault : Fault) :
    (m.dispatchAll is).1.status ≠ .errored fault := by
  induction is generalizing m with
  | nil => exact hs fault
  | cons i rest ih =>
    have ho : (m.dispatch i).1.operators = .builtins := by simp [hm]
    obtain ⟨hc, hn⟩ := hi i List.mem_cons_self
    refine ih ho (fun j hj => ?_) (dispatch_not_errored hm hc hn hs)
    rw [dispatch_naming hm]
    exact hi j (List.mem_cons_of_mem i hj)

/-- Every fault of a run with the built-in operators is foretold.  The run is the dispatch of the
instructions from `start` up to `next`.  Each of them fails for a cause other than a division
exactly when the naming at the start of the run refuses it, and for that cause; the only other fault
is a division by zero, from `DIV` or `MOD`, and it names the first operand.  So a program that
passes and does not divide never stops with a fault. -/
theorem runFrom_faults_foretold (hm : m.operators = .builtins) (program : Program) (start : Nat)
    (limits : Limits) :
    let naming := m.registers.naming
    let dispatched :=
      program.instructions.extract start (m.runFrom program start limits).2.next
    (m.runFrom program start limits).1 = (m.dispatchAll dispatched).1 ∧
    (∀ before i after, dispatched = before ++ i :: after →
      (∀ cause, naming.check i = .error cause ↔
        (m.dispatchAll before).1.FaultsWith i cause ∧
          ∀ register, cause ≠ .divisionByZero register) ∧
      ∀ register, (m.dispatchAll before).1.FaultsWith i (.divisionByZero register) →
        i.operands.head? = some register ∧ (i.opcode = "DIV" ∨ i.opcode = "MOD")) ∧
    ((∀ i ∈ program.instructions,
        naming.check i = .ok () ∧ i.opcode ≠ "DIV" ∧ i.opcode ≠ "MOD") →
      m.status = .running → (m.runFrom program start limits).2.outcome ≠ .errored) := by
  intro naming dispatched
  have hx := exactRun_runFrom m program start limits
  refine ⟨hx.machine_eq, ?_, ?_⟩
  · intro before i after hd
    have ho : (m.dispatchAll before).1.operators = .builtins := by simp [hm]
    have hs : (m.dispatchAll before).1.status = .running :=
      dispatchAll_status_of_dispatched hd
    have hn : naming = (m.dispatchAll before).1.registers.naming :=
      (dispatchAll_naming hm before).symm
    refine ⟨fun cause => ?_, fun register => faultsWith_division ho hs⟩
    rw [hn]
    exact check_eq_error_iff ho hs
  · intro hi hs he
    obtain ⟨fault, hf⟩ := hx.errored_iff.mp he
    rw [hx.machine_eq] at hf
    refine dispatchAll_not_errored hm (fun i hmem => ?_) (fun fault => ?_) fault hf
    · exact hi i (List.mem_of_mem_drop (List.mem_of_mem_take hmem))
    · rw [hs]
      exact fun e => nomatch e

/-- A register whose name reads as a number hides that number, whichever kind is read. -/
theorem runFrom_faults_foretold_hidden_number :
    let m : Machine :=
      { registers := Bank.ofPoints [("a", .int 1), ("7", .float 2.5)]
        operators := .builtins }
    m.operators = .builtins ∧
      (m.dispatchAll [⟨"ADD", ["a", "5"], some 1⟩]).1.FaultsWith ⟨"ADD", ["a", "7"], some 2⟩
        (.noSuchRegister .int "7") := by
  intro m
  have h := (runFrom_faults_foretold (m := m) rfl
    ⟨[], [⟨"ADD", ["a", "5"], some 1⟩, ⟨"ADD", ["a", "7"], some 2⟩, ⟨"NOP", [], some 3⟩]⟩ 0
    .unlimited).2.1 [⟨"ADD", ["a", "5"], some 1⟩] ⟨"ADD", ["a", "7"], some 2⟩ []
    (by decide +kernel)
  exact ⟨rfl, ((h.1 _).mp (by rfl)).1⟩

end Machine
end RegisterMachine
