import Mathlib.Data.List.Induction
import RegisterMachine.Proofs.CommandLine.Logging

/-!
# The grammar of the arguments

Behind the path, the arguments are groups one after the other.  `Group` lists the groups that are
accepted, each with the setting that it makes, and `Refused` the ways in which arguments begin with no
group.  All arguments are groups alone, or groups with refused arguments behind them, and reading finds
out which: the step lemmas are about one group, the rest is by induction along the reading.
-/

namespace RegisterMachine
namespace CommandLine

/-- A group of arguments that is accepted, and the setting that it makes.  A value is taken as it is,
whatever it looks like. -/
inductive Group : List String → Setting → Prop
  | int {spec name : String} {v : Value} (h : Value.parseSpec .int spec = .ok (name, v)) :
      Group ["--int", spec] (.register name v)
  | float {spec name : String} {v : Value} (h : Value.parseSpec .float spec = .ok (name, v)) :
      Group ["--float", spec] (.register name v)
  | budget {text : String} {cost : Float} (h : Literal.float? text.toList = some cost)
      (hfinite : cost.isFinite = true) (hsign : 0 ≤ cost) : Group ["--budget", text] (.budget cost)
  | maxSteps {text : String} {count : Nat} (h : Literal.count? text = some count) :
      Group ["--max-steps", text] (.maxSteps count)
  | noColour : Group ["--no-color"] .noColour
  | quiet : Group ["--quiet"] .quiet
  | quietShort : Group ["-q"] .quiet

inductive Grouped : List String → List Setting → Prop
  | nil : Grouped [] []
  | cons {group rest : List String} {s : Setting} {settings : List Setting} (first : Group group s)
      (others : Grouped rest settings) : Grouped (group ++ rest) (s :: settings)

def valueFlags : List String :=
  ["--int", "--float", "--budget", "--max-steps"]

def switches : List String :=
  ["--no-color", "--quiet", "-q"]

/-- The arguments begin with no group, for a reason. -/
inductive Refused : List String → Refusal → Prop
  | unexpected {argument : String} (hflag : argument ∉ valueFlags) (hswitch : argument ∉ switches)
      (more : List String) : Refused (argument :: more) (.unexpected argument)
  | missingValue {flag : String} (h : flag ∈ valueFlags) : Refused [flag] (.missingValue flag)
  | int {spec : String} {cause : Cause} (h : Value.parseSpec .int spec = .error cause)
      (more : List String) : Refused ("--int" :: spec :: more) (.badRegister "--int" cause)
  | float {spec : String} {cause : Cause} (h : Value.parseSpec .float spec = .error cause)
      (more : List String) : Refused ("--float" :: spec :: more) (.badRegister "--float" cause)
  | budget {text : String}
      (h : ∀ cost, Literal.float? text.toList = some cost → ¬(cost.isFinite = true ∧ 0 ≤ cost))
      (more : List String) : Refused ("--budget" :: text :: more) (.badBudget text)
  | maxSteps {text : String} (h : Literal.count? text = none) (more : List String) :
      Refused ("--max-steps" :: text :: more) (.badSteps text)

/-! ## One group -/

theorem Flag.text_of_ofText? {argument : String} {flag : Flag} (h : ofText? argument = some flag) :
    argument = flag.text ∧ argument ∈ valueFlags := by
  unfold ofText? at h
  split at h <;> cases h
  all_goals exact ⟨rfl, by decide⟩

theorem Flag.ofText?_eq_none_iff {argument : String} :
    ofText? argument = none ↔ argument ∉ valueFlags := by
  unfold ofText? valueFlags
  split <;> simp_all

theorem Setting.ofSwitch?_eq_none_iff {argument : String} :
    ofSwitch? argument = none ↔ argument ∉ switches := by
  unfold ofSwitch? switches
  split <;> simp_all

theorem Setting.group_of_switch {argument : String} {s : Setting}
    (h : ofSwitch? argument = some s) : Group [argument] s := by
  unfold ofSwitch? at h
  split at h
  · cases h
    exact .noColour
  · cases h
    exact .quiet
  · cases h
    exact .quietShort
  · cases h

theorem Flag.setting_budget {text : String} {cost : Float}
    (h : Literal.float? text.toList = some cost) (hfinite : cost.isFinite = true)
    (hsign : 0 ≤ cost) : budget.setting text = .ok (.budget cost) := by
  simp only [setting, h, hfinite, hsign, decide_true, Bool.and_self, if_true]

theorem Flag.setting_badBudget {text : String}
    (h : ∀ cost, Literal.float? text.toList = some cost → ¬(cost.isFinite = true ∧ 0 ≤ cost)) :
    budget.setting text = .error (.badBudget text) := by
  unfold setting
  cases hv : Literal.float? text.toList with
  | none => rfl
  | some cost =>
    have hfalse : (cost.isFinite && decide (0 ≤ cost)) = false := by
      rw [Bool.eq_false_iff, ne_eq, Bool.and_eq_true, decide_eq_true_iff]
      exact h cost hv
    simp only [hfalse, Bool.false_eq_true, if_false]

theorem Group.register (k : Kind) {spec : String} {d : String × Value}
    (h : Value.parseSpec k spec = .ok d) :
    Group [(Flag.register k).text, spec] (.register d.1 d.2) := by
  cases k with
  | int => exact .int h
  | float => exact .float h

theorem Refused.register (k : Kind) {spec : String} {cause : Cause}
    (h : Value.parseSpec k spec = .error cause) (more : List String) :
    Refused ((Flag.register k).text :: spec :: more)
      (.badRegister (Flag.register k).text cause) := by
  cases k with
  | int => exact .int h more
  | float => exact .float h more

/-- A flag with a value is a group or refused. -/
theorem Flag.setting_cases (flag : Flag) (value : String) :
    (∃ s, flag.setting value = .ok s ∧ Group [flag.text, value] s) ∨
    ∃ refusal, flag.setting value = .error refusal ∧
      ∀ more, Refused (flag.text :: value :: more) refusal := by
  cases flag with
  | register kind =>
    cases hv : Value.parseSpec kind value with
    | ok d => exact .inl ⟨.register d.1 d.2, by simp only [setting, hv], Group.register kind hv⟩
    | error cause =>
      exact .inr ⟨_, by simp only [setting, hv], fun more => Refused.register kind hv more⟩
  | budget =>
    by_cases h : ∃ cost, Literal.float? value.toList = some cost ∧ cost.isFinite = true ∧ 0 ≤ cost
    · obtain ⟨cost, hv, hfinite, hsign⟩ := h
      exact .inl ⟨_, setting_budget hv hfinite hsign, .budget hv hfinite hsign⟩
    · have hnone (cost : Float) (hv : Literal.float? value.toList = some cost) :
          ¬(cost.isFinite = true ∧ 0 ≤ cost) := fun hc => h ⟨cost, hv, hc⟩
      exact .inr ⟨_, setting_badBudget hnone, .budget hnone⟩
  | maxSteps =>
    cases hv : Literal.count? value with
    | none => exact .inr ⟨.badSteps value, by simp only [setting, hv], .maxSteps hv⟩
    | some count => exact .inl ⟨.maxSteps count, by simp only [setting, hv], .maxSteps hv⟩

/-! ## All groups -/

/-- What the arguments come to: groups alone, or groups up to what is refused. -/
inductive Reading : List String → List Setting × Option Refusal → Prop
  | accepted {arguments : List String} {settings : List Setting} (h : Grouped arguments settings) :
      Reading arguments (settings, none)
  | refused {before bad : List String} {settings : List Setting} {refusal : Refusal}
      (hbefore : Grouped before settings) (hbad : Refused bad refusal) :
      Reading (before ++ bad) (settings, some refusal)

theorem Reading.cons {group rest : List String} {s : Setting}
    {read : List Setting × Option Refusal} (hg : Group group s) (h : Reading rest read) :
    Reading (group ++ rest) (Setting.cons s read) := by
  cases h with
  | accepted h => exact .accepted (.cons hg h)
  | refused hbefore hbad =>
    rw [← List.append_assoc]
    exact .refused (.cons hg hbefore) hbad

theorem Refused.reading {bad : List String} {refusal : Refusal} (h : Refused bad refusal) :
    Reading bad ([], some refusal) :=
  .refused .nil h

theorem reading_parseAll (arguments : List String) :
    Reading arguments (Setting.parseAll arguments) := by
  fun_induction Setting.parseAll arguments with
  | case1 => exact .accepted .nil
  | case2 argument rest s hs ih => exact .cons (Setting.group_of_switch hs) ih
  | case3 argument rest hs hf =>
    have hflag := Flag.ofText?_eq_none_iff.mp hf
    exact (Refused.unexpected hflag (Setting.ofSwitch?_eq_none_iff.mp hs) rest).reading
  | case4 argument hs flag hf => exact (Refused.missingValue (Flag.text_of_ofText? hf).2).reading
  | case5 argument hs flag value rest hf refusal hv =>
    obtain ⟨rfl, -⟩ := Flag.text_of_ofText? hf
    obtain ⟨s, hs, -⟩ | ⟨refusal', hr, hbad⟩ := flag.setting_cases value
    · cases hv.symm.trans hs
    · cases hv.symm.trans hr
      exact (hbad rest).reading
  | case6 argument hs flag value rest hf s hv ih =>
    obtain ⟨rfl, -⟩ := Flag.text_of_ofText? hf
    obtain ⟨s', hs, hg⟩ | ⟨refusal, hr, -⟩ := flag.setting_cases value
    · cases hv.symm.trans hs
      exact ih.cons hg
    · cases hv.symm.trans hr

theorem Group.parseAll {group : List String} {s : Setting} (h : Group group s)
    (rest : List String) :
    Setting.parseAll (group ++ rest) = Setting.cons s (Setting.parseAll rest) := by
  cases h with
  | int h => exact Setting.parseAll_flag rfl rfl (by simp only [Flag.setting, h]) rest
  | float h => exact Setting.parseAll_flag rfl rfl (by simp only [Flag.setting, h]) rest
  | budget h hfinite hsign =>
    exact Setting.parseAll_flag rfl rfl (Flag.setting_budget h hfinite hsign) rest
  | maxSteps h => exact Setting.parseAll_flag rfl rfl (by simp only [Flag.setting, h]) rest
  | noColour => exact Setting.parseAll_switch rfl rest
  | quiet => exact Setting.parseAll_switch rfl rest
  | quietShort => exact Setting.parseAll_switch rfl rest

theorem Grouped.parseAll {arguments : List String} {settings : List Setting}
    (h : Grouped arguments settings) : Setting.parseAll arguments = (settings, none) := by
  induction h with
  | nil => rfl
  | cons first others ih =>
    rw [first.parseAll, ih]
    rfl

theorem Setting.parseAll_badValue {argument value : String} {flag : Flag} {refusal : Refusal}
    (hs : ofSwitch? argument = none) (hf : Flag.ofText? argument = some flag)
    (hv : flag.setting value = .error refusal) (more : List String) :
    parseAll (argument :: value :: more) = ([], some refusal) := by
  rw [parseAll.eq_def]
  simp only [hs, hf, hv]

theorem Refused.parseAll {bad : List String} {refusal : Refusal} (h : Refused bad refusal) :
    Setting.parseAll bad = ([], some refusal) := by
  cases h with
  | unexpected hflag hswitch more =>
    rw [Setting.parseAll.eq_def]
    simp only [Setting.ofSwitch?_eq_none_iff.mpr hswitch, Flag.ofText?_eq_none_iff.mpr hflag]
  | missingValue h =>
    simp only [valueFlags, List.mem_cons, List.not_mem_nil, or_false] at h
    obtain rfl | rfl | rfl | rfl := h <;> rfl
  | int h more =>
    exact Setting.parseAll_badValue rfl rfl (by simp only [Flag.setting, h, Flag.text]) more
  | float h more =>
    exact Setting.parseAll_badValue rfl rfl (by simp only [Flag.setting, h, Flag.text]) more
  | budget h more => exact Setting.parseAll_badValue rfl rfl (Flag.setting_badBudget h) more
  | maxSteps h more => exact Setting.parseAll_badValue rfl rfl (by simp only [Flag.setting, h]) more

/-- No group stands in front of arguments that are refused. -/
theorem Refused.ne_append {bad : List String} {refusal : Refusal} (h : Refused bad refusal)
    {group : List String} {s : Setting} (hg : Group group s) (more : List String) :
    bad ≠ group ++ more := by
  rintro rfl
  have he := hg.parseAll more
  rw [h.parseAll] at he
  cases he

/-! ## What the settings amount to -/

namespace Setting

def register? : Setting → Option (String × Value)
  | register name value => some (name, value)
  | _ => none

def budget? : Setting → Option Float
  | budget cost => some cost
  | _ => none

def maxSteps? : Setting → Option Nat
  | maxSteps count => some count
  | _ => none

end Setting

namespace Options

/-- The registers are declared in the order of the settings, each limit is the last one that is set,
if any is, and the output is quiet if it is asked for. -/
structure Collects (o : Options) (settings : List Setting) : Prop where
  registers : o.registers = settings.filterMap Setting.register?
  cost : o.limits.cost = (settings.filterMap Setting.budget?).getLast?
  steps : o.limits.steps = (settings.filterMap Setting.maxSteps?).getLast?
  quiet : o.quiet = true ↔ Setting.quiet ∈ settings

theorem Collects.apply {o : Options} {settings : List Setting} (h : o.Collects settings)
    (s : Setting) : (o.apply s).Collects (settings ++ [s]) := by
  obtain ⟨hregisters, hcost, hsteps, hquiet⟩ := h
  cases s <;> constructor <;>
    simp [Options.apply, Setting.register?, Setting.budget?, Setting.maxSteps?, hregisters, hcost,
      hsteps, hquiet]

theorem collects_ofSettings (log : Log.Settings) (settings : List Setting) :
    (ofSettings log settings).Collects settings := by
  induction settings using List.reverseRecOn with
  | nil => exact ⟨rfl, rfl, rfl, by simp [ofSettings]⟩
  | append_singleton settings s ih =>
    rw [ofSettings_append]
    exact ih.apply s

end Options

/-! ## Whole calls -/

def Refusal.help (program : String) : Refusal → List Message
  | .unexpected _ => [.text (usage program)]
  | _ => []

def Terminal.job (terminal : Terminal) (env : Environment) (path : String)
    (settings : List Setting) : Job :=
  ⟨path, .ofSettings (terminal.logSettings env).1 settings, (terminal.logSettings env).2⟩

theorem start_of_parseAll (program : String) (terminal : Terminal) (env : Environment)
    {path : String} {rest : List String} (hhelp : path ≠ "--help") (hh : path ≠ "-h")
    {settings : List Setting}
    {refusal : Option Refusal} (h : Setting.parseAll rest = (settings, refusal)) :
    start program terminal env (path :: rest) =
      match refusal with
      | none => .load (terminal.job env path settings)
      | some refusal => .finished {
          exit := 1
          stderr := (terminal.job env path settings).logged .error refusal.message ++
            refusal.help program } := by
  have hpath : ¬(path = "--help" ∨ path = "-h") := by
    rintro (h | h)
    · exact hhelp h
    · exact hh h
  unfold start
  simp only [if_neg hpath, h]
  cases refusal with
  | none => rfl
  | some refusal => cases refusal <;> simp [Refusal.help, Job.refused, Terminal.job]

/-- Either the arguments are groups and a program is loaded, or the call is finished by what is
refused. -/
theorem start_cases (program : String) (terminal : Terminal) (env : Environment) {path : String}
    (rest : List String) (hhelp : path ≠ "--help") (hh : path ≠ "-h") :
    (∃ settings, Grouped rest settings ∧
      start program terminal env (path :: rest) = .load (terminal.job env path settings)) ∨
    ∃ before bad settings refusal, rest = before ++ bad ∧ Grouped before settings ∧
      Refused bad refusal ∧
      start program terminal env (path :: rest) = .finished {
        exit := 1
        stderr := (terminal.job env path settings).logged .error refusal.message ++
          refusal.help program } := by
  have hread := reading_parseAll rest
  generalize hr : Setting.parseAll rest = r at hread
  have hstart := start_of_parseAll program terminal env hhelp hh hr
  cases hread with
  | accepted h => exact .inl ⟨_, h, hstart⟩
  | refused hbefore hbad => exact .inr ⟨_, _, _, _, rfl, hbefore, hbad, hstart⟩

theorem run_of_load {program : String} {terminal : Terminal} {env : Environment}
    {arguments : List String} {job : Job}
    (h : start program terminal env arguments = .load job)
    {read : String → Except ReadFailure String}
    {source : String} (hread : read job.path = .ok source) {p : Program}
    (hp : Program.parse source = .ok p) :
    run program terminal env arguments read =
      match Machine.provision (job.options.registers ++ p.registers) .builtins
        job.options.limits with
      | .error cause => job.refused cause.message
      | .ok m => execute job p m := by
  cases hm : Machine.provision (job.options.registers ++ p.registers) .builtins
    job.options.limits with
  | error cause => simp only [run, h, hread, finish, hp, hm]
  | ok m => simp only [run, h, hread, finish, hp, hm]

/-- Behind a path, the arguments are accepted exactly if they are a concatenation of groups.  The
registers of the groups are then declared before those of the program, under the last limits that the
groups set.  Otherwise the call exits with 1 at the first arguments that begin with no group, prints
nothing to the standard output and reads no file. -/
theorem run_grammar (program : String) (terminal : Terminal) (env : Environment) (path : String)
    (rest : List String) (hhelp : path ≠ "--help") (hh : path ≠ "-h") :
    ((∃ job, start program terminal env (path :: rest) = .load job) ↔
      ∃ settings, Grouped rest settings) ∧
    (∀ settings, Grouped rest settings →
      ∃ job, start program terminal env (path :: rest) = .load job ∧
      job.path = path ∧ job.options.Collects settings ∧
      ∀ read source p, read path = .ok source → Program.parse source = .ok p →
        run program terminal env (path :: rest) read =
          match Machine.provision (job.options.registers ++ p.registers) .builtins
            job.options.limits with
          | .error cause => job.refused cause.message
          | .ok m => execute job p m) ∧
    ((¬∃ settings, Grouped rest settings) → ∃ before bad settings refusal output,
      rest = before ++ bad ∧ Grouped before settings ∧ Refused bad refusal ∧
      (∀ group s more, Group group s → bad ≠ group ++ more) ∧
      start program terminal env (path :: rest) = .finished output ∧
      (∀ read, run program terminal env (path :: rest) read = output) ∧
      output.exit = 1 ∧ output.stdout = "" ∧
      output.stderr = (terminal.job env path settings).logged .error refusal.message ++
        refusal.help program) := by
  have hload {settings : List Setting} (h : Grouped rest settings) :
      start program terminal env (path :: rest) = .load (terminal.job env path settings) :=
    start_of_parseAll program terminal env hhelp hh h.parseAll
  have hcases := start_cases program terminal env rest hhelp hh
  refine ⟨⟨?_, ?_⟩, ?_, ?_⟩
  · rintro ⟨job, hjob⟩
    obtain ⟨settings, h, -⟩ | ⟨_, _, _, _, -, -, -, hstart⟩ := hcases
    · exact ⟨settings, h⟩
    · cases hjob.symm.trans hstart
  · rintro ⟨settings, h⟩
    exact ⟨_, hload h⟩
  · intro settings h
    refine ⟨_, hload h, rfl, Options.collects_ofSettings _ settings, ?_⟩
    intro read source p hsource hp
    exact run_of_load (hload h) hsource hp
  · intro hnone
    obtain ⟨settings, h, -⟩ |
      ⟨before, bad, settings, refusal, hrest, hbefore, hbad, hstart⟩ := hcases
    · exact absurd ⟨settings, h⟩ hnone
    · refine ⟨before, bad, settings, refusal, _, hrest, hbefore, hbad,
        fun group s more hg => hbad.ne_append hg more, hstart, fun read => ?_, rfl, rfl, rfl⟩
      unfold run
      rw [hstart]

/-- The value of a flag may look like a flag, a later limit replaces an earlier one, and a flag at the
end has no value. -/
theorem run_grammar_repeated :
    let terminal : Terminal := { set := fun _ => "", reset := "", colours := fun _ => false }
    (∃ job, start "rvm" terminal {} ["p.rvm", "--int", "--quiet", "--budget", "5", "--budget",
        "7.5", "--max-steps", "3"] = .load job ∧
      job.options.registers = [("--quiet", .int 0)] ∧ job.options.limits.cost = some 7.5 ∧
      job.options.limits.steps = some 3 ∧ ¬job.options.quiet = true) ∧
    ∃ output, (∀ read, run "rvm" terminal {} ["p.rvm", "-q", "--budget"] read = output) ∧
      output.exit = 1 ∧ output.stdout = "" := by
  intro terminal
  constructor
  · have hgrouped : Grouped
        ["--int", "--quiet", "--budget", "5", "--budget", "7.5", "--max-steps", "3"]
        [.register "--quiet" (.int 0), .budget 5, .budget 7.5, .maxSteps 3] :=
      .cons (.int rfl) (.cons (.budget rfl (by decide +kernel) (by decide +kernel))
        (.cons (.budget rfl (by decide +kernel) (by decide +kernel)) (.cons (.maxSteps rfl) .nil)))
    obtain ⟨job, hjob, -, hcollects, -⟩ :=
      (run_grammar "rvm" terminal {} "p.rvm" _ (by decide) (by decide)).2.1 _ hgrouped
    refine ⟨job, hjob, hcollects.registers, hcollects.cost, hcollects.steps, ?_⟩
    rw [hcollects.quiet]
    simp
  · have hnone : ¬∃ settings, Grouped ["-q", "--budget"] settings := by
      rintro ⟨settings, h⟩
      have hparse : Setting.parseAll ["-q", "--budget"] =
          ([.quiet], some (.missingValue "--budget")) := rfl
      cases hparse.symm.trans h.parseAll
    obtain ⟨_, _, _, _, output, -, -, -, -, -, hrun, hexit, hstdout, -⟩ :=
      (run_grammar "rvm" terminal {} "p.rvm" _ (by decide) (by decide)).2.2 hnone
    exact ⟨output, hrun, hexit, hstdout⟩

end CommandLine
end RegisterMachine
