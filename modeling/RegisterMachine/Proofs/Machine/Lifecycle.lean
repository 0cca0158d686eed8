import Mathlib.Data.List.DropRight
import RegisterMachine.Operator.Script
import RegisterMachine.Proofs.Machine.History

/-!
# The life of a machine through a history

A machine stops once, with a halt or with a fault, and stays as it is until it is reset.  A host
sees three things of this: the phase, the fault and the reasoning.  `Record` keeps the three apart
and writes each of them by itself, with its own guard against a machine that has stopped; it is told
of every attempted instruction, also of those that a stopped machine skips.  `calls_record` says
that after any history the status of the machine and the record tell the same story, and
`calls_fault` that the fault in it is the one that was met since the last reset.
-/

namespace RegisterMachine

def Call.poke? : Call → Option (String × Value)
  | poke name v => some (name, v)
  | _ => none

def Bank.updateAll (b : Bank) (pokes : List (String × Value)) : Bank :=
  pokes.foldl (fun b p => b.update p.1 p.2) b

inductive Phase where
  | running
  | halted
  | errored
deriving DecidableEq

structure Record where
  phase : Phase := .running
  fault : Option Fault := none
  reasoning : Option String := none
deriving DecidableEq

namespace Record

def fail (r : Record) (f : Fault) : Record :=
  if r.phase = .running then
    { r with reasoning := some f.text, fault := some f, phase := .errored }
  else r

def halt (r : Record) : Record :=
  if r.phase = .running then { r with phase := .halted } else r

def reset (r : Record) : Record :=
  { r with phase := .running, fault := none, reasoning := none }

structure Coherent (r : Record) : Prop where
  errored_iff_fault : r.phase = .errored ↔ r.fault.isSome
  fault_iff_reasoning : r.fault.isSome ↔ r.reasoning.isSome
  reasoning_eq_text : ∀ f, r.fault = some f → r.reasoning = some f.text

def settle (r : Record) (i : Instruction) : Except Cause Bool → Record
  | .ok false => r
  | .ok true => r.halt
  | .error cause => r.fail ⟨i.opcode, i.line, cause⟩

/-- An attempted instruction is settled as if it had been executed, whatever the machine that met it
has come to. -/
def follow (r : Record) : Machine.Event → Record
  | .attempt m i => r.settle i (m.execute i).2
  | .reset => r.reset

theorem settle_of_stopped {r : Record} (h : r.phase ≠ .running) (i : Instruction)
    (result : Except Cause Bool) : r.settle i result = r := by
  match result with
  | .ok false => rfl
  | .ok true => exact if_neg h
  | .error cause => exact if_neg h

theorem coherent_fail {r : Record} (h : r.Coherent) (f : Fault) : (r.fail f).Coherent := by
  by_cases hr : r.phase = .running
  · simp only [fail, if_pos hr]
    exact ⟨by simp, by simp, by simp⟩
  · simp only [fail, if_neg hr]
    exact h

theorem coherent_halt {r : Record} (h : r.Coherent) : r.halt.Coherent := by
  by_cases hr : r.phase = .running
  · -- A record that is running has no fault, so nothing is left behind.
    have hf : r.fault.isSome = false := by
      rw [Bool.eq_false_iff, ne_eq, ← h.errored_iff_fault, hr]
      decide
    simp only [halt, if_pos hr]
    exact ⟨by simp [hf], h.fault_iff_reasoning, h.reasoning_eq_text⟩
  · simp only [halt, if_neg hr]
    exact h

theorem coherent_follow {r : Record} (h : r.Coherent) (e : Machine.Event) :
    (r.follow e).Coherent := by
  cases e with
  | reset => exact ⟨by simp [follow, reset], by simp [follow, reset], fun f hf => nomatch hf⟩
  | attempt m i =>
    show (r.settle i (m.execute i).2).Coherent
    match (m.execute i).2 with
    | .ok false => exact h
    | .ok true => exact coherent_halt h
    | .error cause => exact coherent_fail h _

theorem coherent_foldl_follow (es : List Machine.Event) :
    (es.foldl follow {}).Coherent := by
  have hall : ∀ r : Record, r.Coherent → (es.foldl follow r).Coherent := by
    induction es with
    | nil => exact fun r h => h
    | cons e rest ih => exact fun r h => ih (r.follow e) (coherent_follow h e)
  exact hall {} ⟨by decide, by decide, fun f hf => nomatch hf⟩

end Record

namespace Status

def phase : Status → Phase
  | running => .running
  | halted => .halted
  | errored _ => .errored

def record (s : Status) : Record :=
  ⟨s.phase, s.fault?, s.reasoning?⟩

@[simp] theorem phase_eq_running_iff {s : Status} : s.phase = .running ↔ s = .running := by
  cases s <;> simp [phase]

/-! A change that the status refuses is one that the record ignores. -/

@[simp] theorem record_fail (s : Status) (f : Fault) :
    ((s.fail? f).getD s).record = s.record.fail f := by
  cases s <;> rfl

@[simp] theorem record_halt (s : Status) : (s.halt?.getD s).record = s.record.halt := by
  cases s <;> rfl

end Status

namespace Machine

theorem dispatch_record (m : Machine) (i : Instruction) :
    (m.dispatch i).1.status.record = m.status.record.follow (.attempt m i) := by
  show _ = m.status.record.settle i (m.execute i).2
  by_cases h : m.status = .running
  · obtain ⟨m', he, hd⟩ | ⟨m', he, hd⟩ | ⟨m', cause, he, hd⟩ := dispatch_of_running h i
    · have hs : (m.dispatch i).1.status = .running := by
        rw [← dispatch_eq_executed_iff, hd]
      rw [hs, he, h]
      rfl
    · rw [hd, he]
      show _ = m.status.record.halt
      rw [← Status.record_halt, h]
      rfl
    · rw [hd, he]
      show _ = m.status.record.fail ⟨i.opcode, i.line, cause⟩
      rw [← Status.record_fail, h]
      rfl
  · have hp : m.status.record.phase ≠ .running := fun e => h (Status.phase_eq_running_iff.mp e)
    rw [dispatch_of_stopped h, Record.settle_of_stopped hp]

theorem calls_record {m : Machine} (h : m.status = .running) (cs : List Call) :
    (m.calls cs).status.record = (m.events cs).foldl Record.follow {} := by
  refine calls_logged (P := fun m past => m.status.record = past.foldl Record.follow {})
    ?_ ?_ ?_ [] ?_ cs
  · intro m i past hm
    rw [dispatch_record, hm, List.foldl_append]
    rfl
  · intro m name v past hm
    exact hm
  · intro m past hm
    rw [List.foldl_append, ← hm]
    rfl
  · rw [h]
    rfl

namespace Event

def isAttempt : Event → Bool
  | attempt _ _ => true
  | reset => false

def fault? : Event → Option Fault
  | attempt m i =>
    match (m.dispatch i).2, (m.execute i).2 with
    | .faulted, .error cause => some ⟨i.opcode, i.line, cause⟩
    | _, _ => none
  | reset => none

end Event

theorem dispatch_fault (m : Machine) (i : Instruction) :
    (m.dispatch i).1.status.fault?.toList =
      m.status.fault?.toList ++ (Event.attempt m i).fault?.toList := by
  by_cases h : m.status = .running
  · obtain ⟨m', he, hd⟩ | ⟨m', he, hd⟩ | ⟨m', cause, he, hd⟩ := dispatch_of_running h i
    · have hs : (m.dispatch i).1.status = .running := by
        rw [← dispatch_eq_executed_iff, hd]
      have hf : (Event.attempt m i).fault? = none := by simp only [Event.fault?, hd]
      rw [hs, h, hf]
      rfl
    · have hf : (Event.attempt m i).fault? = none := by simp only [Event.fault?, hd]
      rw [hd, h, hf]
      rfl
    · have hf : (Event.attempt m i).fault? = some ⟨i.opcode, i.line, cause⟩ := by
        simp only [Event.fault?, hd, he]
      rw [hd, h, hf]
      rfl
  · have hf : (Event.attempt m i).fault? = none := by
      simp only [Event.fault?, dispatch_of_stopped h]
    rw [dispatch_of_stopped h, hf, Option.toList_none, List.append_nil]

/-- No more than one instruction fails before the next reset, and its fault is the one on record. -/
theorem calls_fault {m : Machine} (h : m.status = .running) (cs : List Call) :
    (m.calls cs).status.fault?.toList =
      ((m.events cs).rtakeWhile Event.isAttempt).filterMap Event.fault? := by
  refine calls_logged (P := fun m past => m.status.fault?.toList =
    (past.rtakeWhile Event.isAttempt).filterMap Event.fault?) ?_ ?_ ?_ [] ?_ cs
  · intro m i past hm
    rw [List.rtakeWhile_concat_pos _ _ _ rfl, List.filterMap_append, dispatch_fault, hm]
    congr 1
  · intro m name v past hm
    exact hm
  · intro m past hm
    rw [List.rtakeWhile_concat_neg _ _ _ Bool.false_ne_true]
    rfl
  · rw [h]
    rfl

/-! ## Stopped machines -/

/-- Of a history without a reset, a stopped machine sees the pokes alone. -/
theorem calls_of_stopped {m : Machine} (h : m.status ≠ .running) {cs : List Call}
    (hc : Call.reset ∉ cs) :
    m.calls cs = { m with registers := m.registers.updateAll (cs.filterMap Call.poke?) } := by
  induction cs generalizing m with
  | nil => rfl
  | cons c rest ih =>
    have hrest : Call.reset ∉ rest := fun hm => hc (List.mem_cons_of_mem c hm)
    show (m.call c).calls rest = _
    cases c with
    | dispatch i =>
      have hd : m.call (.dispatch i) = m := congrArg Prod.fst (dispatch_of_stopped h i)
      rw [hd]
      exact ih h hrest
    | runFrom program start limits =>
      have hd : m.call (.runFrom program start limits) = m :=
        (runFrom_of_stopped h program start limits).1
      rw [hd]
      exact ih h hrest
    | poke name v =>
      rw [call_poke]
      exact ih h hrest
    | reset => exact absurd List.mem_cons_self hc

/-- An operator that fails stops the machine with a fault, also when it has asked for a halt. -/
theorem dispatch_of_failing_operator {m : Machine} (h : m.status = .running) {i : Instruction}
    {op : Operator} {cause : Cause} {context : Context} (ho : m.operatorFor i = .ok op)
    (hf : op.run i.operands { registers := m.registers } = .error cause context) :
    m.dispatch i =
      ({ m with
          registers := context.registers
          profile := m.profile.add op.category op.cost
          status := .errored ⟨i.opcode, i.line, cause⟩ }, .faulted) := by
  have he : m.execute i =
      ({ m with registers := context.registers, profile := m.profile.add op.category op.cost },
        .error cause) := by
    simp only [execute, ho, hf]
  simp only [dispatch, h, he]
  rfl

/-- The life of a machine, through every history from its start.  The status tells what three
entries would that are written one by one, so there is a fault and a reasoning exactly when the
machine has stopped with a fault, and the reasoning is the text of that fault; the fault is that of
the only instruction that failed since the last reset.  Nothing but pokes reaches a stopped machine
that is not reset.  An operator that fails never halts the machine, whatever it asked for before.  A
poke acts on the registers alone, and a reset on the status alone. -/
theorem calls_lifecycle :
    (∀ (registers : Bank) (operators : Registry) (limits : Limits) (cs : List Call),
      let fresh : Machine := { registers := registers, operators := operators, limits := limits }
      let record := (fresh.calls cs).status.record
      record = (fresh.events cs).foldl Record.follow {} ∧ record.Coherent ∧
        record.fault.toList =
          ((fresh.events cs).rtakeWhile Event.isAttempt).filterMap Event.fault?) ∧
    (∀ (m : Machine) (cs : List Call), m.status ≠ .running → Call.reset ∉ cs →
      m.calls cs = { m with registers := m.registers.updateAll (cs.filterMap Call.poke?) }) ∧
    (∀ (m : Machine) (i : Instruction) (op : Operator) (cause : Cause) (context : Context),
      m.status = .running → m.operatorFor i = .ok op →
      op.run i.operands { registers := m.registers } = .error cause context →
        (m.dispatch i).2 = .faulted ∧
          (m.dispatch i).1.status = .errored ⟨i.opcode, i.line, cause⟩) ∧
    (∀ (m : Machine) (name : String) (v : Value),
      m.call (.poke name v) = { m with registers := m.registers.update name v }) ∧
    ∀ m : Machine, m.call .reset = { m with status := .running } := by
  refine ⟨?_, ?_, ?_, call_poke, fun m => rfl⟩
  · intro registers operators limits cs fresh record
    have hr : record = (fresh.events cs).foldl Record.follow {} := calls_record rfl cs
    refine ⟨hr, ?_, calls_fault rfl cs⟩
    rw [hr]
    exact Record.coherent_foldl_follow _
  · intro m cs hs hc
    exact calls_of_stopped hs hc
  · intro m i op cause context hs ho hf
    rw [dispatch_of_failing_operator hs ho hf]
    exact ⟨rfl, rfl⟩

/-- An operator that asks for a halt and then fails, and a stopped machine that is dispatched and
poked. -/
theorem calls_lifecycle_halt_then_fail :
    let op : Operator :=
      { opcode := "STOP", arity := .exactly 0, cost := 1
        run := Script.run [.halt, .fail (.divisionByZero "a")] }
    let m : Machine :=
      { registers := Bank.ofPoints [("a", .int 1)], operators := ⟨.ofList [("STOP", op)]⟩ }
    let stopped := (m.dispatch ⟨"STOP", [], some 3⟩).1
    stopped.status = .errored ⟨"STOP", some 3, .divisionByZero "a"⟩ ∧
      stopped.calls [.dispatch ⟨"STOP", [], none⟩, .poke "a" (.float 2), .poke "a" (.int 2)] =
        { stopped with registers := stopped.registers.updateAll [("a", .float 2), ("a", .int 2)] } := by
  intro op m stopped
  have ho : m.operatorFor ⟨"STOP", [], some 3⟩ = .ok op := by rfl
  have hs := (calls_lifecycle.2.2.1 m ⟨"STOP", [], some 3⟩ op (.divisionByZero "a")
    { registers := m.registers, halting := true } rfl ho rfl).2
  refine ⟨hs, calls_lifecycle.2.1 stopped _ ?_ (by simp)⟩
  rw [hs]
  exact fun e => nomatch e

end Machine
end RegisterMachine
