import RegisterMachine.CommandLine.Basic
import RegisterMachine.Proofs.CommandLine.Setting

/-!
# The log has no say

What the command line prints and how it exits follows from the arguments and the file alone.
`Ready` lists what has to go well before a program runs and mentions no log.  A call asks for help,
is ready or is refused, and in each case its answer is read off without the terminal and the
environment.  A switch behind arguments that are accepted changes at most what is printed after the
state.
-/

namespace RegisterMachine
namespace CommandLine

def Output.answer (o : Output) : Nat × String :=
  (o.exit, o.stdout)

def AsksHelp (arguments : List String) : Prop :=
  arguments.head? = some "--help" ∨ arguments.head? = some "-h"

/-- The arguments are accepted with the given options, and the file that they name is read, parsed
and given its registers. -/
inductive Ready (read : String → Except ReadFailure String) :
    List String → Options → Program → Machine → Prop
  | intro {path source : String} {rest : List String} {settings : List Setting}
      {program : Program} {m : Machine} (command : ¬AsksHelp (path :: rest))
      (accepted : Setting.parseAll rest = (settings, none))
      (contents : read path = .ok source) (parsed : Program.parse source = .ok program)
      (provisioned : Machine.provision
        ((Options.ofSettings {} settings).registers ++ program.registers) .builtins
        (Options.ofSettings {} settings).limits = .ok m) :
      Ready read (path :: rest) (Options.ofSettings {} settings) program m

def printed (quiet : Bool) (result : Machine × Report) : String :=
  stateText result.1 result.2 ++
    if quiet then "" else registersText result.1.registers ++ profileText result.1.profile

def exitCode (result : Machine × Report) : Nat :=
  if result.2.outcome = .errored then 2 else 0

section

variable {read : String → Except ReadFailure String} {arguments : List String} {options : Options}
  {p : Program} {m : Machine}

@[simp] theorem asksHelp_cons {path : String} {rest : List String} :
    AsksHelp (path :: rest) ↔ path = "--help" ∨ path = "-h" := by
  simp [AsksHelp]

theorem run_of_asksHelp (h : AsksHelp arguments) (program : String) (terminal : Terminal)
    (env : Environment) :
    (run program terminal env arguments read).answer = (0, usage program) := by
  cases arguments with
  | nil => simp [AsksHelp] at h
  | cons path rest =>
    unfold run start
    simp only [if_pos (asksHelp_cons.mp h)]
    rfl

theorem execute_answer (job : Job) (p : Program) (m : Machine) :
    (execute job p m).answer = (exitCode (m.run p), printed job.options.quiet (m.run p)) :=
  rfl

theorem Ready.answer (h : Ready read arguments options p m) (program : String)
    (terminal : Terminal) (env : Environment) :
    (run program terminal env arguments read).answer =
      (exitCode (m.run p), printed options.quiet (m.run p)) := by
  obtain ⟨command, accepted, contents, parsed, provisioned⟩ := h
  rename_i path source rest settings
  have hsame := Options.sameButLog_ofSettings (terminal.logSettings env).1 {} settings
  unfold run start
  simp only [if_neg (mt asksHelp_cons.mpr command), accepted]
  unfold finish
  simp only [contents, parsed, hsame.registers, hsame.limits, provisioned]
  rw [execute_answer, hsame.quiet]

theorem finish_cases (job : Job) (contents : Except ReadFailure String) :
    (∃ source p m, contents = .ok source ∧ Program.parse source = .ok p ∧
      Machine.provision (job.options.registers ++ p.registers) .builtins job.options.limits =
        .ok m) ∨ (finish job contents).answer = (1, "") := by
  unfold finish
  cases contents with
  | error failure => exact .inr rfl
  | ok source =>
    simp only
    cases hp : Program.parse source with
    | error cause => exact .inr rfl
    | ok p =>
      simp only
      cases hm : Machine.provision (job.options.registers ++ p.registers) .builtins
          job.options.limits with
      | error cause => exact .inr rfl
      | ok m => exact .inl ⟨source, p, m, rfl, hp, hm⟩

/-- A call that neither asks for help nor is ready is refused. -/
theorem run_of_not_ready (hh : ¬AsksHelp arguments)
    (hr : ∀ options p m, ¬Ready read arguments options p m) (program : String)
    (terminal : Terminal) (env : Environment) :
    (run program terminal env arguments read).answer = (1, "") := by
  cases arguments with
  | nil => rfl
  | cons path rest =>
    unfold run start
    simp only [if_neg (mt asksHelp_cons.mpr hh)]
    cases hp : Setting.parseAll rest with
    | mk settings refusal =>
      cases refusal with
      | some refusal => cases refusal <;> rfl
      | none =>
        have hsame := Options.sameButLog_ofSettings (terminal.logSettings env).1 {} settings
        obtain ⟨source, p, m, contents, parsed, provisioned⟩ | h := finish_cases
          ⟨path, .ofSettings (terminal.logSettings env).1 settings, (terminal.logSettings env).2⟩
          (read path)
        · simp only [hsame.registers, hsame.limits] at provisioned
          exact absurd (.intro hh hp contents parsed provisioned) (hr _ p m)
        · exact h

/-- What becomes of a call, whatever the terminal and the environment are. -/
theorem run_cases (read : String → Except ReadFailure String) (program : String)
    (arguments : List String) :
    (AsksHelp arguments ∧
      ∀ terminal env, (run program terminal env arguments read).answer = (0, usage program)) ∨
    (∃ options p m, Ready read arguments options p m ∧
      ∀ terminal env, (run program terminal env arguments read).answer =
        (exitCode (m.run p), printed options.quiet (m.run p))) ∨
    ((∀ options p m, ¬Ready read arguments options p m) ∧
      ∀ terminal env, (run program terminal env arguments read).answer = (1, "")) := by
  by_cases hh : AsksHelp arguments
  · exact .inl ⟨hh, run_of_asksHelp hh program⟩
  by_cases hr : ∃ options p m, Ready read arguments options p m
  · obtain ⟨options, p, m, h⟩ := hr
    exact .inr (.inl ⟨options, p, m, h, h.answer program⟩)
  · have hr : ∀ options p m, ¬Ready read arguments options p m :=
      fun options p m h => hr ⟨options, p, m, h⟩
    exact .inr (.inr ⟨hr, run_of_not_ready hh hr program⟩)

/-! ## Switches behind the arguments -/

theorem AsksHelp.append (h : AsksHelp arguments) (more : List String) :
    AsksHelp (arguments ++ more) := by
  cases arguments with
  | nil => simp [AsksHelp] at h
  | cons path rest => exact h

theorem Setting.ofSwitch?_eq_some {switch : String} {s : Setting}
    (h : ofSwitch? switch = some s) : s = .noColour ∨ s = .quiet := by
  unfold ofSwitch? at h
  split at h
  · exact .inl (Option.some.inj h).symm
  · exact .inr (Option.some.inj h).symm
  · exact .inr (Option.some.inj h).symm
  · cases h

/-- A switch takes no value and touches neither the registers nor the limits, so it leaves a call
ready. -/
theorem Ready.append_switch (h : Ready read arguments options p m) {switch : String} {s : Setting}
    (hs : Setting.ofSwitch? switch = some s) :
    Ready read (arguments ++ [switch]) (options.apply s) p m := by
  obtain ⟨command, accepted, contents, parsed, provisioned⟩ := h
  rename_i path source rest settings
  have haccepted : Setting.parseAll (rest ++ [switch]) = (settings ++ [s], none) := by
    rw [Setting.parseAll_append accepted, Setting.parseAll_switch hs]
    rfl
  have hoptions : Options.ofSettings {} (settings ++ [s]) =
      (Options.ofSettings {} settings).apply s := Options.ofSettings_append {} settings [s]
  have hkeeps : ((Options.ofSettings {} settings).apply s).registers =
      (Options.ofSettings {} settings).registers ∧
      ((Options.ofSettings {} settings).apply s).limits =
        (Options.ofSettings {} settings).limits := by
    obtain rfl | rfl := Setting.ofSwitch?_eq_some hs <;> exact ⟨rfl, rfl⟩
  rw [← hoptions] at hkeeps ⊢
  refine .intro (fun hh => command hh) haccepted contents parsed ?_
  rw [hkeeps.1, hkeeps.2]
  exact provisioned

theorem printed_quiet (result : Machine × Report) (quiet : Bool) :
    (printed true result).toList <+: (printed quiet result).toList := by
  have htrue : printed true result = stateText result.1 result.2 := String.append_empty
  rw [htrue, printed, String.toList_append]
  exact List.prefix_append _ _

theorem exitCode_ne_one (result : Machine × Report) : exitCode result ≠ 1 := by
  unfold exitCode
  by_cases h : result.2.outcome = .errored
  · rw [if_pos h]
    decide
  · rw [if_neg h]
    decide

theorem exitCode_eq_two_iff {result : Machine × Report} :
    exitCode result = 2 ↔ result.2.outcome = .errored := by
  unfold exitCode
  by_cases h : result.2.outcome = .errored <;> simp [h]

end

/-! ## Whole calls -/

section

variable (program : String) (arguments : List String) (read : String → Except ReadFailure String)
  (terminal : Terminal) (env : Environment)

theorem answer_eq (terminal' : Terminal) (env' : Environment) :
    (run program terminal' env' arguments read).answer =
      (run program terminal env arguments read).answer := by
  obtain ⟨-, h⟩ | ⟨options, p, m, -, h⟩ | ⟨-, h⟩ := run_cases read program arguments
  · rw [h, h]
  · rw [h, h]
  · rw [h, h]

theorem answer_append_switch {switch : String} {s : Setting}
    (hs : Setting.ofSwitch? switch = some s)
    (hexit : (run program terminal env arguments read).answer.1 ≠ 1) :
    let before := (run program terminal env arguments read).answer
    let after := (run program terminal env (arguments ++ [switch]) read).answer
    after.1 = before.1 ∧ (s = .noColour → after.2 = before.2) ∧
      after.2.toList <+: before.2.toList := by
  intro before after
  obtain ⟨hh, h⟩ | ⟨options, p, m, hr, h⟩ | ⟨-, h⟩ := run_cases read program arguments
  · have hb : before = (0, usage program) := h terminal env
    have ha : after = (0, usage program) :=
      run_of_asksHelp (hh.append [switch]) program terminal env
    rw [ha, hb]
    exact ⟨rfl, fun _ => rfl, List.prefix_refl _⟩
  · have hb : before = (exitCode (m.run p), printed options.quiet (m.run p)) := h terminal env
    have ha : after = (exitCode (m.run p), printed (options.apply s).quiet (m.run p)) :=
      (hr.append_switch hs).answer program terminal env
    rw [ha, hb]
    obtain rfl | rfl := Setting.ofSwitch?_eq_some hs
    · exact ⟨rfl, fun _ => rfl, List.prefix_refl _⟩
    · exact ⟨rfl, fun e => (nomatch e), printed_quiet (m.run p) options.quiet⟩
  · rw [h] at hexit
    exact absurd rfl hexit

theorem answer_eq_two_iff :
    (run program terminal env arguments read).answer.1 = 2 ↔
      ∃ options p m, Ready read arguments options p m ∧ (m.run p).2.outcome = .errored := by
  constructor
  · intro he
    obtain ⟨-, h⟩ | ⟨options, p, m, hr, h⟩ | ⟨-, h⟩ := run_cases read program arguments
    · rw [h] at he
      cases he
    · rw [h] at he
      exact ⟨options, p, m, hr, exitCode_eq_two_iff.mp he⟩
    · rw [h] at he
      cases he
  · rintro ⟨options, p, m, hr, ho⟩
    rw [hr.answer]
    exact exitCode_eq_two_iff.mpr ho

theorem answer_of_exit_one (he : (run program terminal env arguments read).answer.1 = 1) :
    (run program terminal env arguments read).answer.2 = "" := by
  obtain ⟨-, h⟩ | ⟨options, p, m, -, h⟩ | ⟨-, h⟩ := run_cases read program arguments
  · rw [h] at he
    cases he
  · rw [h] at he
    exact absurd he (exitCode_ne_one _)
  · rw [h]

/-- The exit code and the printed text do not depend on the terminal or the environment.  Where the
call is not refused, `--no-color` behind the arguments changes neither, and `-q` or `--quiet` cuts
the printed text short.  The exit code is two exactly when a program ran and failed, and a call that
exits with one prints nothing. -/
theorem run_ignores_log :
    (∀ terminal' env',
      (run program terminal' env' arguments read).exit =
        (run program terminal env arguments read).exit ∧
      (run program terminal' env' arguments read).stdout =
        (run program terminal env arguments read).stdout) ∧
    let o := run program terminal env arguments read
    (o.exit ≠ 1 →
      let plain := run program terminal env (arguments ++ ["--no-color"]) read
      plain.exit = o.exit ∧ plain.stdout = o.stdout ∧
      ∀ switch ∈ ["-q", "--quiet"],
        let quiet := run program terminal env (arguments ++ [switch]) read
        quiet.exit = o.exit ∧ quiet.stdout.toList <+: o.stdout.toList) ∧
    (o.exit = 2 ↔ ∃ options p m, Ready read arguments options p m ∧
      (m.run p).2.outcome = .errored) ∧
    (o.exit = 1 → o.stdout = "") := by
  refine ⟨?_, ?_, answer_eq_two_iff program arguments read terminal env,
    answer_of_exit_one program arguments read terminal env⟩
  · intro terminal' env'
    exact Prod.mk.inj (answer_eq program arguments read terminal env terminal' env')
  · intro hexit plain
    have hswitch {switch : String} {s : Setting} (hs : Setting.ofSwitch? switch = some s) :=
      answer_append_switch program arguments read terminal env hs hexit
    have hplain : Setting.ofSwitch? "--no-color" = some .noColour := rfl
    obtain ⟨hcode, htext, -⟩ := hswitch hplain
    refine ⟨hcode, htext rfl, fun switch hmem => ?_⟩
    have hs : Setting.ofSwitch? switch = some .quiet := by
      simp only [List.mem_cons, List.not_mem_nil, or_false] at hmem
      obtain rfl | rfl := hmem <;> rfl
    exact ⟨(hswitch hs).1, (hswitch hs).2.2⟩

/-- A division by zero exits with two, with or without the registers. -/
theorem run_ignores_log_division :
    let read : String → Except ReadFailure String := fun _ => .ok ".int a 7\nDIV a, 0\n"
    let terminal : Terminal := { set := fun _ => "", reset := "", colours := fun _ => false }
    let o := run "regvm" terminal {} ["p.rvm"] read
    let quiet := run "regvm" terminal {} ["p.rvm", "-q"] read
    o.exit = 2 ∧ quiet.exit = 2 ∧ quiet.stdout.toList <+: o.stdout.toList := by
  intro read terminal o quiet
  have ho : o.exit = 2 := by decide +kernel
  have hne : o.exit ≠ 1 := by
    rw [ho]
    decide
  have h := ((run_ignores_log "regvm" ["p.rvm"] read terminal {}).2.1 hne).2.2 "-q" (by decide)
  exact ⟨ho, h.1.trans ho, h.2⟩

end

end CommandLine
end RegisterMachine
