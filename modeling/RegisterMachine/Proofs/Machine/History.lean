import RegisterMachine.Proofs.Machine.Run

/-!
# Histories of a machine

A host may dispatch single instructions, run programs, set registers from outside and reset the
machine, in any order.  `calls` is the machine after such a history, and `events` is what happened
in it: every instruction that was dispatched, with the machine that met it, and every reset.  Since
a run is plain dispatch, each call comes down to dispatches, to one write or to a reset.
`calls_logged` is the induction over histories for what a machine has to do with its past, and
`calls_invariant` the one for what holds throughout.
-/

namespace RegisterMachine

inductive Call where
  | dispatch (i : Instruction)
  | runFrom (program : Program) (start : Nat) (limits : Limits)
  | poke (name : String) (v : Value)
  | reset

/-- The bank after an attempt to set a register; a refusal changes nothing. -/
def Bank.update (b : Bank) (name : String) (v : Value) : Bank :=
  (b.set name v).toOption.getD b

theorem Bank.update_cases (b : Bank) (name : String) (v : Value) :
    (b.contains v.kind name = true ∧ b.update name v = b.write name v) ∨
      (b.contains v.kind name = false ∧ b.update name v = b) := by
  unfold update set
  cases h : b.contains v.kind name with
  | true => exact .inl ⟨rfl, rfl⟩
  | false => exact .inr ⟨rfl, rfl⟩

namespace Machine

def call (m : Machine) : Call → Machine
  | .dispatch i => (m.dispatch i).1
  | .runFrom program start limits => (m.runFrom program start limits).1
  | .poke name v => (m.poke name v).toOption.getD m
  | .reset => m.reset

def calls (m : Machine) (cs : List Call) : Machine :=
  cs.foldl call m

@[simp] theorem call_poke (m : Machine) (name : String) (v : Value) :
    m.call (.poke name v) = { m with registers := m.registers.update name v } := by
  show (m.poke name v).toOption.getD m = _
  unfold poke Bank.update
  cases m.registers.set name v with
  | error cause => rfl
  | ok b => rfl

theorem call_runFrom (m : Machine) (program : Program) (start : Nat) (limits : Limits) :
    m.call (.runFrom program start limits) =
      (m.dispatchAll (program.instructions.extract start
        (m.runFrom program start limits).2.next)).1 :=
  (exactRun_runFrom m program start limits).machine_eq

/-! ## Events -/

inductive Event where
  | attempt (m : Machine) (i : Instruction)
  | reset

def attempts (m : Machine) : List Instruction → List Event
  | [] => []
  | i :: rest => .attempt m i :: (m.dispatch i).1.attempts rest

def callEvents (m : Machine) : Call → List Event
  | .dispatch i => m.attempts [i]
  | .runFrom program start limits =>
    m.attempts (program.instructions.extract start (m.runFrom program start limits).2.next)
  | .poke _ _ => []
  | .reset => [.reset]

def events (m : Machine) : List Call → List Event
  | [] => []
  | c :: rest => m.callEvents c ++ (m.call c).events rest

theorem dispatchAll_logged {P : Machine → List Event → Prop}
    (hd : ∀ m i past, P m past → P (m.dispatch i).1 (past ++ [.attempt m i])) {m : Machine}
    (past : List Event) (hm : P m past) (is : List Instruction) :
    P (m.dispatchAll is).1 (past ++ m.attempts is) := by
  induction is generalizing m past with
  | nil =>
    rw [attempts, List.append_nil]
    exact hm
  | cons i rest ih =>
    have hi := ih (past ++ [.attempt m i]) (hd m i past hm)
    rw [List.append_assoc] at hi
    exact hi

/-- What holds of a machine and its past is carried through a history when each attempt, each
change from outside and each reset keeps it. -/
theorem calls_logged {P : Machine → List Event → Prop}
    (hd : ∀ m i past, P m past → P (m.dispatch i).1 (past ++ [.attempt m i]))
    (hp : ∀ m name v past, P m past → P { m with registers := m.registers.update name v } past)
    (hr : ∀ m past, P m past → P m.reset (past ++ [.reset])) {m : Machine} (past : List Event)
    (hm : P m past) (cs : List Call) : P (m.calls cs) (past ++ m.events cs) := by
  induction cs generalizing m past with
  | nil =>
    rw [events, List.append_nil]
    exact hm
  | cons c rest ih =>
    rw [events, ← List.append_assoc]
    apply ih
    cases c with
    | dispatch i => exact dispatchAll_logged hd past hm [i]
    | runFrom program start limits =>
      rw [call_runFrom]
      exact dispatchAll_logged hd past hm _
    | poke name v =>
      rw [call_poke, callEvents, List.append_nil]
      exact hp m name v past hm
    | reset => exact hr m past hm

theorem calls_invariant {P : Machine → Prop} (hd : ∀ m i, P m → P (m.dispatch i).1)
    (hw : ∀ m name v, m.registers.contains v.kind name = true → P m →
      P { m with registers := m.registers.write name v })
    (hr : ∀ m, P m → P m.reset) {m : Machine} (hm : P m) (cs : List Call) : P (m.calls cs) := by
  refine calls_logged (P := fun m _ => P m) (fun m i _ => hd m i) ?_ (fun m _ => hr m) [] hm cs
  intro m name v _ hm
  obtain ⟨hc, hu⟩ | ⟨-, hu⟩ := m.registers.update_cases name v
  · rw [hu]
    exact hw m name v hc hm
  · rw [hu]
    exact hm

end Machine
end RegisterMachine
