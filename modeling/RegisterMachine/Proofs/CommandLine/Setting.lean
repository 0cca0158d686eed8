import RegisterMachine.CommandLine.Setting

/-!
# Reading settings

Arguments that are accepted end with a complete group, so whatever stands behind them is read by
itself.  What the settings amount to is a fold over them; the log is carried along and decides
nothing else.
-/

namespace RegisterMachine
namespace CommandLine

namespace Setting

variable {argument : String} {s : Setting}

theorem parseAll_switch (h : ofSwitch? argument = some s) (rest : List String) :
    parseAll (argument :: rest) = cons s (parseAll rest) := by
  rw [parseAll.eq_def]
  simp only [h]

theorem parseAll_flag {flag : Flag} {value : String} (hs : ofSwitch? argument = none)
    (hf : Flag.ofText? argument = some flag) (hv : flag.setting value = .ok s)
    (rest : List String) : parseAll (argument :: value :: rest) = cons s (parseAll rest) := by
  rw [parseAll.eq_def]
  simp only [hs, hf, hv]

theorem cons_eq_accepted {read : List Setting × Option Refusal} {settings : List Setting}
    (h : cons s read = (settings, none)) : ∃ rest, read = (rest, none) ∧ settings = s :: rest := by
  obtain ⟨read, refusal⟩ := read
  obtain ⟨rfl, rfl⟩ := Prod.mk.inj h
  exact ⟨read, rfl, rfl⟩

/-- Groups that are accepted are read in the same way whatever follows them. -/
theorem parseAll_append {arguments : List String} {settings : List Setting}
    (h : parseAll arguments = (settings, none)) (more : List String) :
    parseAll (arguments ++ more) = (settings ++ (parseAll more).1, (parseAll more).2) := by
  induction arguments using parseAll.induct generalizing settings with
  | case1 =>
    cases h
    rfl
  | case2 argument rest s hs ih =>
    rw [parseAll_switch hs] at h
    obtain ⟨settings, hrest, rfl⟩ := cons_eq_accepted h
    rw [List.cons_append, parseAll_switch hs, ih hrest]
    rfl
  | case3 argument rest hs hf =>
    simp [parseAll, hs, hf] at h
  | case4 argument hs flag hf =>
    simp [parseAll, hs, hf] at h
  | case5 argument hs flag value rest hf refusal hv =>
    simp [parseAll, hs, hf, hv] at h
  | case6 argument hs flag value rest hf s hv ih =>
    rw [parseAll_flag hs hf hv] at h
    obtain ⟨settings, hrest, rfl⟩ := cons_eq_accepted h
    rw [List.cons_append, List.cons_append, parseAll_flag hs hf hv, ih hrest]
    rfl

end Setting

namespace Options

theorem ofSettings_append (log : Log.Settings) (settings more : List Setting) :
    ofSettings log (settings ++ more) = more.foldl apply (ofSettings log settings) :=
  List.foldl_append

structure SameButLog (o o' : Options) : Prop where
  registers : o.registers = o'.registers
  limits : o.limits = o'.limits
  quiet : o.quiet = o'.quiet

theorem SameButLog.apply {o o' : Options} (h : o.SameButLog o') (s : Setting) :
    (o.apply s).SameButLog (o'.apply s) := by
  obtain ⟨hr, hl, hq⟩ := h
  cases s with
  | register name value => exact ⟨by simp only [Options.apply, hr], hl, hq⟩
  | budget cost => exact ⟨hr, by simp only [Options.apply, hl], hq⟩
  | maxSteps count => exact ⟨hr, by simp only [Options.apply, hl], hq⟩
  | noColour => exact ⟨hr, hl, hq⟩
  | quiet => exact ⟨hr, hl, rfl⟩

theorem SameButLog.foldl {o o' : Options} (h : o.SameButLog o') (settings : List Setting) :
    (settings.foldl Options.apply o).SameButLog (settings.foldl Options.apply o') := by
  induction settings generalizing o o' with
  | nil => exact h
  | cons s rest ih => exact ih (h.apply s)

theorem sameButLog_ofSettings (log log' : Log.Settings) (settings : List Setting) :
    (ofSettings log settings).SameButLog (ofSettings log' settings) := by
  have h : ({ log := log } : Options).SameButLog { log := log' } := ⟨rfl, rfl, rfl⟩
  exact h.foldl settings

end Options
end CommandLine
end RegisterMachine
