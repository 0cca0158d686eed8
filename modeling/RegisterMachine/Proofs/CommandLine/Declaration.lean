import RegisterMachine.Proofs.CommandLine.Grammar
import RegisterMachine.Proofs.Program.Directive

/-!
# Registers on the command line and in programs

A register is asked for by a flag, whose value is split at its first equality sign, or by a line of
the program, which is split into tokens.  Where the name is a token without an equality sign, both
read the same name, and the value is read by the same reader, so both give the same register or
refuse the same text.  Registers that are asked for in one order are therefore provisioned alike,
whether flags ask for them or lines at the head of the program.
-/

namespace RegisterMachine

namespace Value

variable {k : Kind} {name : String}

/-- A name without an equality sign goes on to the first one behind it. -/
theorem split_name_append (hn : '=' ∉ name.toList) (rest : List Char) :
    (name.toList ++ rest).takeWhile (· != '=') = name.toList ++ rest.takeWhile (· != '=') ∧
      (name.toList ++ rest).dropWhile (· != '=') = rest.dropWhile (· != '=') := by
  have hplain : ∀ c ∈ name.toList, (c != '=') = true := by
    intro c hc
    rw [bne_iff_ne]
    intro he
    exact hn (he ▸ hc)
  exact ⟨List.takeWhile_append_of_pos hplain, List.dropWhile_append_of_pos hplain⟩

theorem parseSpec_name (hne : name ≠ "") (hn : '=' ∉ name.toList) :
    parseSpec k name = .ok (name, zero k) := by
  obtain ⟨htake, hdrop⟩ := split_name_append hn []
  simp only [List.append_nil, List.takeWhile_nil, List.dropWhile_nil] at htake hdrop
  simp only [parseSpec, htake, hdrop, String.ofList_toList, hne, if_false]
  rfl

theorem parseSpec_value (hne : name ≠ "") (hn : '=' ∉ name.toList) (token : String) :
    parseSpec k (name ++ "=" ++ token) = (parse k token).map fun v => (name, v) := by
  have hspec : (name ++ "=" ++ token).toList = name.toList ++ '=' :: token.toList := by
    simp only [String.toList_append, List.append_assoc]
    rfl
  obtain ⟨htake, hdrop⟩ := split_name_append hn ('=' :: token.toList)
  -- The sign behind the name is the first one, whatever the text behind it.
  have htaken : ('=' :: token.toList).takeWhile (· != '=') = [] := rfl
  have hdropped : ('=' :: token.toList).dropWhile (· != '=') = '=' :: token.toList := rfl
  rw [htaken, List.append_nil] at htake
  rw [hdropped] at hdrop
  simp only [parseSpec, hspec, htake, hdrop, String.ofList_toList, hne, if_false]
  cases parse k token with
  | ok v => rfl
  | error cause => rfl

end Value

namespace RegisterText

/-- The register can be asked for in both ways.  A flag takes an equality sign for the end of the
name. -/
structure Portable (r : RegisterText) : Prop extends WellFormed r where
  unsplit : '=' ∉ r.name.toList

def spec (r : RegisterText) : String :=
  match r.value? with
  | none => r.name
  | some token => r.name ++ "=" ++ token

def arguments (r : RegisterText) : List String :=
  [(CommandLine.Flag.register r.kind).text, r.spec]

theorem Portable.parseSpec {r : RegisterText} (h : r.Portable) :
    Value.parseSpec r.kind r.spec = r.value.map fun v => (r.name, v) := by
  have hne : r.name ≠ "" := by
    intro he
    exact h.name.ne_nil (by rw [he]; rfl)
  cases hv : r.value? with
  | none =>
    rw [spec, hv, value_of_none hv]
    exact Value.parseSpec_name hne h.unsplit
  | some token =>
    rw [spec, hv, value_of_some hv]
    exact Value.parseSpec_value hne h.unsplit token

/-- A flag and a line that ask for one register are read alike or refused alike. -/
theorem Portable.read_alike {r : RegisterText} (h : r.Portable) :
    (∃ v, r.value = .ok v ∧ Value.parseSpec r.kind r.spec = .ok (r.name, v) ∧
      Program.parse r.line = .ok ⟨[⟨r.name, v, 1⟩], []⟩) ∨
    ∃ token, r.value? = some token ∧
      Value.parseSpec r.kind r.spec = .error (.invalidLiteral r.kind token) ∧
      Program.parse r.line = .error (.badLine 1 (Cause.invalidLiteral r.kind token).message) := by
  have hline := Program.parse_line h.toWellFormed
  have hspec := h.parseSpec
  cases hv : r.value with
  | ok v =>
    rw [hv] at hline hspec
    exact .inl ⟨v, rfl, hspec, hline⟩
  | error cause =>
    obtain ⟨token, htoken, rfl⟩ := value_eq_error hv
    rw [hv] at hline hspec
    exact .inr ⟨token, htoken, hspec, hline⟩

/-- Flags with the registers as their values are read as the registers. -/
theorem parseSpec_of_means {rs : List RegisterText} {given : List (String × Value)}
    (h : ∀ r ∈ rs, r.Portable) (hd : List.Forall₂ Means rs given) :
    List.Forall₂ (fun r d => Value.parseSpec r.kind r.spec = .ok d) rs given := by
  induction hd with
  | nil => exact .nil
  | cons hr hrs ih =>
    obtain ⟨hp, hps⟩ := List.forall_mem_cons.mp h
    refine .cons ?_ (ih hps)
    rw [hp.parseSpec, hr.2, ← hr.1]
    rfl

end RegisterText

namespace CommandLine

variable {rs : List RegisterText} {given : List (String × Value)}

theorem grouped_arguments
    (h : List.Forall₂ (fun r d => Value.parseSpec r.kind r.spec = .ok d) rs given) :
    Grouped (rs.flatMap RegisterText.arguments) (given.map fun d => .register d.1 d.2) := by
  induction h with
  | nil => exact .nil
  | cons hr hrs ih =>
    rw [List.flatMap_cons, List.map_cons]
    exact .cons (Group.register _ hr) ih

@[simp] theorem registers_ofSettings (log : Log.Settings) (given : List (String × Value)) :
    (Options.ofSettings log (given.map fun d => .register d.1 d.2)).registers = given := by
  rw [(Options.collects_ofSettings log _).registers, List.filterMap_map]
  exact List.filterMap_some

/-- The flags are refused at the first register whose value is refused. -/
theorem parseAll_arguments_refused {before after : List RegisterText} {r : RegisterText}
    {cause : Cause} (h : ∀ q ∈ before ++ r :: after, q.Portable)
    (hd : List.Forall₂ RegisterText.Means before given) (hv : r.value = .error cause) :
    (Setting.parseAll ((before ++ r :: after).flatMap RegisterText.arguments)).2 =
      some (.badRegister (Flag.register r.kind).text cause) := by
  have hbefore : ∀ q ∈ before, q.Portable := fun q hq => h q (List.mem_append_left _ hq)
  have hr : r.Portable := h r (List.mem_append_right _ List.mem_cons_self)
  have hspec : Value.parseSpec r.kind r.spec = .error cause := by
    rw [hr.parseSpec, hv]
    rfl
  have hgrouped := grouped_arguments (RegisterText.parseSpec_of_means hbefore hd)
  have hbad := (Refused.register r.kind hspec (after.flatMap RegisterText.arguments)).parseAll
  rw [List.flatMap_append, List.flatMap_cons, Setting.parseAll_append hgrouped.parseAll]
  exact congrArg Prod.snd hbad

/-- Where the name is a token without an equality sign, a flag and a line of a program ask for the
same register, with the same value, or are refused for the same literal; without a value both ask for
zero.  So registers that are asked for in one order are provisioned alike, to the same bank or with
the same refusal, by flags in front of any program or by lines at its head, unless one of the values
is no literal, and then the flags and the lines are refused at the first such value. -/
theorem flags_agree_with_directives :
    (∀ (k : Kind) (name token : String), Text.IsToken name → '=' ∉ name.toList →
      Text.IsToken token →
      let spec := name ++ "=" ++ token
      let line := k.directive ++ " " ++ name ++ " " ++ token
      (∀ v, Value.parseSpec k spec = .ok (name, v) ↔
        ∃ p, Program.parse line = .ok p ∧ p.registers = [(name, v)] ∧ p.instructions = []) ∧
      ((¬∃ v, Value.parseSpec k spec = .ok (name, v)) →
        let cause := Cause.invalidLiteral k token
        Value.parseSpec k spec = .error cause ∧
          Program.parse line = .error (.badLine 1 cause.message))) ∧
    (∀ (k : Kind) (name : String), Text.IsToken name → '=' ∉ name.toList →
      Value.parseSpec k name = .ok (name, .zero k) ∧
        Program.parse (k.directive ++ " " ++ name) = .ok ⟨[⟨name, .zero k, 1⟩], []⟩) ∧
    ∀ (rs : List RegisterText) (source : String) (p : Program), (∀ r ∈ rs, r.Portable) →
      Program.parse source = .ok p →
      let flags := Setting.parseAll (rs.flatMap RegisterText.arguments)
      let text := Program.directives rs ++ source
      (∃ q, flags.2 = none ∧ Program.parse text = .ok q ∧
        q.instructions = p.instructions.map (Instruction.shift rs.length) ∧
        ∀ log, let registers := (Options.ofSettings log flags.1).registers
          List.Forall₂ (fun r d => Value.parseSpec r.kind r.spec = .ok d) rs registers ∧
            Bank.provision (registers ++ p.registers) = Bank.provision q.registers) ∨
      ∃ before r token after, rs = before ++ r :: after ∧ r.value? = some token ∧
        let cause := Cause.invalidLiteral r.kind token
        flags.2 = some (.badRegister (Flag.register r.kind).text cause) ∧
          Program.parse text = .error (.badLine (before.length + 1) cause.message) := by
  refine ⟨fun k name token hname hsign htoken => ?_, fun k name hname hsign => ?_,
    fun rs source p hrs hp => ?_⟩
  · intro spec line
    have hr : RegisterText.Portable ⟨k, name, some token⟩ :=
      ⟨⟨hname, fun t ht => Option.some.inj ht ▸ htoken⟩, hsign⟩
    obtain ⟨v, -, hspec, hline⟩ | ⟨t, ht, hspec, hline⟩ := hr.read_alike
    · have hspec : Value.parseSpec k spec = .ok (name, v) := hspec
      have hline : Program.parse line = .ok ⟨[⟨name, v, 1⟩], []⟩ := hline
      refine ⟨fun w => ?_, fun hno => absurd ⟨v, hspec⟩ hno⟩
      simp [hspec, hline, Program.registers]
    · obtain rfl : token = t := Option.some.inj ht
      have hspec : Value.parseSpec k spec = .error (.invalidLiteral k token) := hspec
      have hline : Program.parse line =
          .error (.badLine 1 (Cause.invalidLiteral k token).message) := hline
      refine ⟨fun w => ?_, fun _ => ⟨hspec, hline⟩⟩
      simp [hspec, hline]
  · have hr : RegisterText.Portable ⟨k, name, none⟩ := ⟨⟨hname, by simp⟩, hsign⟩
    obtain ⟨v, hv, hspec, hline⟩ | ⟨t, ht, -⟩ := hr.read_alike
    · obtain rfl : Value.zero k = v := Except.ok.inj hv
      exact ⟨hspec, hline⟩
    · cases ht
  · intro flags text
    have hwell : ∀ r ∈ rs, r.WellFormed := fun r hr => (hrs r hr).toWellFormed
    obtain ⟨given, hgiven⟩ | ⟨before, r, after, given, cause, rfl, hgiven, hv⟩ :=
      RegisterText.means_or_refused rs
    · have hspecs := RegisterText.parseSpec_of_means hrs hgiven
      have hflags : flags = _ := (grouped_arguments hspecs).parseAll
      refine .inl ⟨_, by rw [hflags], Program.parse_directives_append hwell hgiven hp, ?_,
        fun log => ?_⟩
      · rw [hgiven.length_eq]
        rfl
      · simpa [hflags] using hspecs
    · obtain ⟨token, htoken, rfl⟩ := RegisterText.value_eq_error hv
      exact .inr ⟨before, r, token, after, rfl, htoken, parseAll_arguments_refused hrs hgiven hv,
        Program.parse_directives_refused hwell hgiven hv source⟩

/-- A name that looks like a directive with a value that has an equality sign, and one name for two
registers of different kinds in front of a program. -/
theorem flags_agree_with_directives_taken_name :
    let rs : List RegisterText := [⟨.float, "b", some "1e3"⟩, ⟨.int, "b", none⟩]
    (∀ r ∈ rs, r.Portable) ∧ Text.IsToken ".x" ∧ Text.IsToken "1=2" ∧
      Value.parseSpec .int ".x=1=2" = .error (.invalidLiteral .int "1=2") ∧
      Program.parse ".int .x 1=2" = .error (.badLine 1 "`1=2` is not a valid int literal") ∧
      rs.flatMap RegisterText.arguments = ["--float", "b=1e3", "--int", "b"] ∧
      Program.directives rs = ".float b 1e3\n.int b\n" ∧
      ∃ q, Program.parse (Program.directives rs ++ "NOP") = .ok q ∧
        Bank.provision q.registers = .error (.duplicateRegister "b") := by
  intro rs
  have hx : Text.IsToken ".x" := Text.isToken_iff_tokens.mpr (by decide +kernel)
  have hvalue : Text.IsToken "1=2" := Text.isToken_iff_tokens.mpr (by decide +kernel)
  have hb : Text.IsToken "b" := Text.isToken_iff_tokens.mpr (by decide +kernel)
  have hliteral : Text.IsToken "1e3" := Text.isToken_iff_tokens.mpr (by decide +kernel)
  have hrs : ∀ r ∈ rs, r.Portable := by
    simp only [rs, List.forall_mem_cons]
    refine ⟨⟨⟨hb, fun t ht => Option.some.inj ht ▸ hliteral⟩, by decide⟩,
      ⟨⟨hb, by simp⟩, by decide⟩, by simp⟩
  obtain ⟨hone, -, hmany⟩ := flags_agree_with_directives
  have hno : ¬∃ v, Value.parseSpec .int (".x" ++ "=" ++ "1=2") = .ok (".x", v) := by
    intro h
    obtain ⟨v, hv⟩ := h
    have herror : Value.parseSpec .int (".x" ++ "=" ++ "1=2") =
        .error (.invalidLiteral .int "1=2") := by decide +kernel
    cases herror.symm.trans hv
  obtain ⟨hspec, hline⟩ := (hone .int ".x" "1=2" hx (by decide) hvalue).2 hno
  have hflags : (Setting.parseAll (rs.flatMap RegisterText.arguments)).2 = none := rfl
  have hnop : Program.parse "NOP" = .ok ⟨[], [⟨"NOP", [], some 1⟩]⟩ := by decide +kernel
  refine ⟨hrs, hx, hvalue, hspec, hline, rfl, rfl, ?_⟩
  obtain ⟨q, -, hq, -, hsame⟩ | ⟨_, _, _, _, -, -, hrefused, -⟩ := hmany rs "NOP" _ hrs hnop
  · obtain ⟨-, hprovision⟩ := hsame { coloured := false }
    exact ⟨q, hq, hprovision.symm.trans rfl⟩
  · rw [hflags] at hrefused
    cases hrefused

end CommandLine
end RegisterMachine
