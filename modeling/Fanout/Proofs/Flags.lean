import Fanout.Arguments
import Mathlib.Data.List.Basic

/-!
# Flags in front of a template

The flags of a call end at the first argument that does not begin with a dash; an empty argument is
such a one. Everything from there on is the template, dashes or not. Of the flags, those for a dry
run only change the settings, and the first other one decides alone what the call asks for, whatever
stands behind it.

* `flagsOf`, `tokensOf`: the two parts of the arguments.
* `deciding?`: the first flag that asks for something else than a dry run.
* `Asks`: what the arguments ask for, said of the two parts.
* `asks_cons_dry`: one flag for a dry run more; `asks_readArguments`: all arguments.
* `readArguments_eq_iff`: reading arguments gives what they ask for and nothing else.
-/

namespace Fanout

/-- The flags for a dry run. -/
def dryFlags : List Text := ["-t".toList, "--test".toList]

/-- The flags for the version. -/
def versionFlags : List Text := ["-V".toList, "--version".toList]

/-- The flags for help. -/
def helpFlags : List Text := ["-h".toList, "--help".toList]

/-- The argument begins with a dash. -/
def dashed (arg : Text) : Bool := arg.head? = some '-'

/-- The arguments in front of the first that does not begin with a dash. -/
def flagsOf (arguments : List Text) : List Text := arguments.takeWhile dashed

/-- The first argument that does not begin with a dash, and all behind it. -/
def tokensOf (arguments : List Text) : List Text := arguments.dropWhile dashed

/-- The first flag that is not for a dry run. -/
def deciding? (arguments : List Text) : Option Text :=
  (flagsOf arguments).find? fun flag => flag ∉ dryFlags

/-- What the arguments ask for. -/
inductive Asks (settings : Settings) (arguments : List Text) : Except Fault Invocation → Prop
  | version {flag : Text} (first : deciding? arguments = some flag) (known : flag ∈ versionFlags) :
    Asks settings arguments (.ok .version)
  | help {flag : Text} (first : deciding? arguments = some flag) (known : flag ∈ helpFlags) :
    Asks settings arguments (.ok .help)
  | unknown {flag : Text} {f : Fault} (first : deciding? arguments = some flag)
      (noVersion : flag ∉ versionFlags) (noHelp : flag ∉ helpFlags) (kind : f.kind = .usage)
      (message : f.message = "Flag not recognised (".toList ++ flag ++ [')']) :
    Asks settings arguments (.error f)
  /-- Without a template there is nothing to run. -/
  | nothing (dry : deciding? arguments = none) (none : tokensOf arguments = []) :
    Asks settings arguments (.ok .help)
  | run (dry : deciding? arguments = none) (some : tokensOf arguments ≠ []) :
    Asks settings arguments (.ok (.run
      { settings with dryRun := settings.dryRun || !(flagsOf arguments).isEmpty }
      (tokensOf arguments)))

/-! ## One argument -/

section Argument

variable {settings : Settings} {arg : Text}

theorem isFlag_eq_dashed (arg : Text) : isFlag arg = dashed arg := by
  cases arg with
  | nil => rfl
  | cons c t => simp [isFlag, dashed]

theorem dashed_of_mem_dryFlags (h : arg ∈ dryFlags) : dashed arg = true := by
  have hall : ∀ flag ∈ dryFlags, dashed flag = true := by decide
  exact hall arg h

/-- The flags that decide by themselves are others than those for a dry run. -/
theorem not_mem_dryFlags (h : arg ∈ versionFlags ∨ arg ∈ helpFlags) : arg ∉ dryFlags := by
  have hall : ∀ flag ∈ versionFlags ++ helpFlags, flag ∉ dryFlags := by decide
  exact hall arg (List.mem_append.mpr h)

theorem not_mem_versionFlags (h : arg ∈ helpFlags) : arg ∉ versionFlags := by
  have hall : ∀ flag ∈ helpFlags, flag ∉ versionFlags := by decide
  exact hall arg h

theorem flagsOf_cons (h : dashed arg = true) (rest : List Text) :
    flagsOf (arg :: rest) = arg :: flagsOf rest := by
  rw [flagsOf, List.takeWhile_cons_of_pos h, flagsOf]

theorem tokensOf_cons (h : dashed arg = true) (rest : List Text) :
    tokensOf (arg :: rest) = tokensOf rest := by
  rw [tokensOf, List.dropWhile_cons_of_pos h, tokensOf]

/-- The first argument without a dash begins the template. -/
theorem flagsOf_of_not_dashed (h : dashed arg = false) (rest : List Text) :
    flagsOf (arg :: rest) = [] ∧ tokensOf (arg :: rest) = arg :: rest := by
  have hnot : ¬dashed arg = true := by simp [h]
  exact ⟨List.takeWhile_cons_of_neg hnot, List.dropWhile_cons_of_neg hnot⟩

/-- A flag that is not for a dry run decides when no other does before it. -/
theorem deciding?_cons (h : dashed arg = true) (hdry : arg ∉ dryFlags) (rest : List Text) :
    deciding? (arg :: rest) = some arg := by
  rw [deciding?, flagsOf_cons h, List.find?_cons_of_pos (by simpa using hdry)]

theorem deciding?_cons_dry (hdry : arg ∈ dryFlags) (rest : List Text) :
    deciding? (arg :: rest) = deciding? rest := by
  have h : dashed arg = true := dashed_of_mem_dryFlags hdry
  rw [deciding?, flagsOf_cons h, List.find?_cons_of_neg (by simpa using hdry), deciding?]

/-- Behind a flag for a dry run, the same is asked for of settings with a dry run. -/
theorem asks_cons_dry (hdry : arg ∈ dryFlags) {rest : List Text} {r : Except Fault Invocation}
    (h : Asks { settings with dryRun := true } rest r) : Asks settings (arg :: rest) r := by
  have hdash : dashed arg = true := dashed_of_mem_dryFlags hdry
  have hdeciding := deciding?_cons_dry hdry rest
  have htokens := tokensOf_cons hdash rest
  cases h with
  | version first known => exact .version (hdeciding.trans first) known
  | help first known => exact .help (hdeciding.trans first) known
  | unknown first noVersion noHelp kind message =>
    exact .unknown (hdeciding.trans first) noVersion noHelp kind message
  | nothing dry none => exact .nothing (hdeciding.trans dry) (htokens.trans none)
  | run dry some =>
    have hrun : Asks settings (arg :: rest) _ := .run (hdeciding.trans dry) (by rwa [htokens])
    rw [htokens, flagsOf_cons hdash] at hrun
    simpa using hrun

/-- The template begins, and no flag has changed the settings. -/
theorem asks_tokens (h : dashed arg = false) (rest : List Text) :
    Asks settings (arg :: rest) (.ok (.run settings (arg :: rest))) := by
  obtain ⟨hflags, htokens⟩ := flagsOf_of_not_dashed h rest
  have hdry : deciding? (arg :: rest) = none := by
    rw [deciding?, hflags]
    rfl
  have hrun : Asks settings (arg :: rest) _ := .run hdry (by simp [htokens])
  rw [htokens, hflags] at hrun
  simpa using hrun

/-- One flag: it decides, or it asks for a dry run and the reading goes on. -/
theorem readArguments_cons_dashed (h : dashed arg = true) (rest : List Text) :
    readArguments settings (arg :: rest) =
      if arg ∈ versionFlags then .ok .version
      else if arg ∈ helpFlags then .ok .help
      else if arg ∈ dryFlags then readArguments { settings with dryRun := true } rest
      else .error (.unknownFlag arg) := by
  have hpair (x y : Text) : arg ∈ [x, y] ↔ arg = x ∨ arg = y := by simp
  simp only [readArguments, isFlag_eq_dashed, h, Bool.not_true, Bool.false_eq_true, if_false,
    versionFlags, helpFlags, dryFlags, hpair, Bool.or_eq_true, decide_eq_true_eq]

theorem readArguments_cons_not_dashed (h : dashed arg = false) (rest : List Text) :
    readArguments settings (arg :: rest) = .ok (.run settings (arg :: rest)) := by
  rw [readArguments, isFlag_eq_dashed, h]
  rfl

end Argument

/-! ## All arguments -/

/-- The arguments ask for what is read of them. -/
theorem asks_readArguments (settings : Settings) (arguments : List Text) :
    Asks settings arguments (readArguments settings arguments) := by
  induction arguments generalizing settings with
  | nil => exact .nothing rfl rfl
  | cons arg rest ih =>
    cases hdash : dashed arg with
    | false =>
      rw [readArguments_cons_not_dashed hdash]
      exact asks_tokens hdash rest
    | true =>
      rw [readArguments_cons_dashed hdash]
      split_ifs with hversion hhelp hdry
      · exact .version (deciding?_cons hdash (not_mem_dryFlags (.inl hversion)) rest) hversion
      · exact .help (deciding?_cons hdash (not_mem_dryFlags (.inr hhelp)) rest) hhelp
      · exact asks_cons_dry hdry (ih _)
      · exact .unknown (deciding?_cons hdash hdry rest) hversion hhelp rfl rfl

/-- A fault of usage that names a flag is the one of an unknown flag. -/
theorem eq_unknownFlag {f : Fault} {flag : Text} (hkind : f.kind = .usage)
    (hmessage : f.message = "Flag not recognised (".toList ++ flag ++ [')']) :
    f = .unknownFlag flag := by
  cases f <;> simp only [Fault.kind, reduceCtorEq] at hkind
  case unknownFlag x =>
    have hnames : "Flag not recognised (".toList ++ x ++ [')'] =
      "Flag not recognised (".toList ++ flag ++ [')'] := hmessage
    rw [List.append_cancel_left (List.append_cancel_right hnames)]

section Unique

variable {settings : Settings} {arguments : List Text} {r : Except Fault Invocation}

/-- What is asked for when a flag decides. -/
theorem Asks.eq_of_some (h : Asks settings arguments r) {flag : Text}
    (hfirst : deciding? arguments = some flag) :
    r = if flag ∈ versionFlags then .ok .version
      else if flag ∈ helpFlags then .ok .help
      else .error (.unknownFlag flag) := by
  cases h with
  | version first known =>
    obtain rfl := Option.some.inj (first.symm.trans hfirst)
    rw [if_pos known]
  | help first known =>
    obtain rfl := Option.some.inj (first.symm.trans hfirst)
    rw [if_neg (not_mem_versionFlags known), if_pos known]
  | unknown first noVersion noHelp kind message =>
    obtain rfl := Option.some.inj (first.symm.trans hfirst)
    rw [if_neg noVersion, if_neg noHelp, eq_unknownFlag kind message]
  | nothing dry none => exact absurd (dry.symm.trans hfirst) (by simp)
  | run dry some => exact absurd (dry.symm.trans hfirst) (by simp)

/-- What is asked for when no flag decides. -/
theorem Asks.eq_of_none (h : Asks settings arguments r) (hdry : deciding? arguments = none) :
    r = if tokensOf arguments = [] then .ok .help
      else .ok (.run { settings with dryRun := settings.dryRun || !(flagsOf arguments).isEmpty }
        (tokensOf arguments)) := by
  cases h with
  | version first known => exact absurd (hdry.symm.trans first) (by simp)
  | help first known => exact absurd (hdry.symm.trans first) (by simp)
  | unknown first noVersion noHelp kind message => exact absurd (hdry.symm.trans first) (by simp)
  | nothing dry none => rw [if_pos none]
  | run dry some => rw [if_neg some]

/-- Arguments ask for one thing only. -/
theorem Asks.unique {r' : Except Fault Invocation} (h : Asks settings arguments r)
    (h' : Asks settings arguments r') : r = r' := by
  cases hfirst : deciding? arguments with
  | some flag => rw [h.eq_of_some hfirst, h'.eq_of_some hfirst]
  | none => rw [h.eq_of_none hfirst, h'.eq_of_none hfirst]

end Unique

/-- Reading arguments gives what they ask for, and nothing else. -/
theorem readArguments_eq_iff (settings : Settings) (arguments : List Text)
    (r : Except Fault Invocation) :
    readArguments settings arguments = r ↔ Asks settings arguments r := by
  constructor
  · rintro rfl
    exact asks_readArguments settings arguments
  · intro h
    exact (asks_readArguments settings arguments).unique h

/-- An empty argument begins the template, and a flag behind it is a part of that. -/
example : readArguments {} ["-t".toList, [], "-V".toList] =
    .ok (.run { dryRun := true } [[], "-V".toList]) := by decide

end Fanout
