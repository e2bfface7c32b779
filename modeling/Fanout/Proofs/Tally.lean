import Fanout.Proofs.Endings

/-!
# What a batch reports

A batch takes its commands one after another, and a failure stops none of those behind it. What it
reports is told by the commands and by what comes of the calls of its host: every command is an
attempt, and a command that cannot be split and a call without success are failures.

* `outcomes`: what comes of calls of a host, one after another.
* `countP_isFailure_run`: how many failures a real run has.
* `report_run`: what a batch calls, writes and reports, and what two batches report together.
-/

namespace Fanout

namespace Batch

namespace Summary

/-- The counts of two batches together. -/
instance : Add Summary := ⟨fun a b => ⟨a.attempted + b.attempted, a.failed + b.failed⟩⟩

theorem ofEvents_append (xs ys : List Event) : ofEvents (xs ++ ys) = ofEvents xs + ofEvents ys := by
  rw [ofEvents, List.length_append, List.countP_append]
  rfl

theorem failed_le_attempted (events : List Event) :
    (ofEvents events).failed ≤ (ofEvents events).attempted := List.countP_le_length

theorem exitCode_cases (s : Summary) : s.exitCode = 0 ∨ s.exitCode = 1 := by
  unfold exitCode
  split_ifs
  · exact .inr rfl
  · exact .inl rfl

theorem exitCode_ofEvents {events : List Event} :
    (ofEvents events).exitCode = 1 ↔ ∃ event ∈ events, event.isFailure = true := by
  rw [← List.countP_pos_iff, exitCode]
  split_ifs with h
  · exact iff_of_true rfl h
  · exact iff_of_false (by decide) h

end Summary

variable {σ : Type} (host : Host σ) (settings : Settings)

/-! ## Calls and what comes of them -/

/-- What comes of calls of a host, one after another. -/
def outcomes (state : σ) : List (List Text) → List (Except StartFailure ExitStatus)
  | [] => []
  | words :: calls =>
    (host.start state words).2 :: outcomes (host.start state words).1 calls

/-- Nothing was started, or what was started did not end with success. -/
def isFailed : Except StartFailure ExitStatus → Bool
  | .error _ => true
  | .ok status => status ≠ .exited 0

theorem outcomes_append (state : σ) (xs ys : List (List Text)) :
    outcomes host state (xs ++ ys) =
      outcomes host state xs ++ outcomes host (stateAfter host state xs) ys := by
  induction xs generalizing state with
  | nil => rfl
  | cons words xs ih =>
    rw [List.cons_append, outcomes, outcomes, ih, List.cons_append]
    rfl

/-- The calls for commands: the words of each command that has some. -/
def callsOf (commands : List Text) : List (List Text) :=
  commands.filterMap fun command => called (Command.words? settings command)

theorem callsOf_cons (command : Text) (commands : List Text) :
    callsOf settings (command :: commands) =
      (called (Command.words? settings command)).toList ++ callsOf settings commands := by
  rw [callsOf, List.filterMap_cons]
  cases called (Command.words? settings command) <;> rfl

/-! ## Failures -/

/-- The command cannot be split. -/
def isUnsplit (command : Text) : Bool := (Command.words? settings command).isNone

section Real

variable (hreal : settings.dryRun = false)

include hreal

/-- A command fails once when it cannot be split, and otherwise as its call does. -/
theorem isFailure_runOne_toNat (state : σ) (command : Text) :
    (runOne host settings state command).2.isFailure.toNat =
      (isUnsplit settings command).toNat +
        (outcomes host state (called (Command.words? settings command)).toList).countP isFailed := by
  rw [runOne, if_neg (by simp [hreal]), isUnsplit]
  cases Command.words? settings command with
  | none => rfl
  | some words =>
    cases words with
    | nil => rfl
    | cons w ws =>
      have hcalls : (called (some (w :: ws))).toList = [w :: ws] := rfl
      rw [hcalls]
      cases houtcome : (host.start state (w :: ws)).2 with
      | error f => simp [outcomes, isFailed, houtcome, Event.isFailure]
      | ok status =>
        by_cases hsuccess : status = .exited 0 <;>
          simp [outcomes, isFailed, houtcome, Event.isFailure, ExitStatus.isSuccess, hsuccess]

/-- A real run has a failure for each command that cannot be split, and one for each call without
success. -/
theorem countP_isFailure_run (state : σ) (commands : List Text) :
    (run host settings state commands).2.countP Event.isFailure =
      commands.countP (isUnsplit settings) +
        (outcomes host state (callsOf settings commands)).countP isFailed := by
  induction commands generalizing state with
  | nil => rfl
  | cons command commands ih =>
    have hone := isFailure_runOne_toNat host settings hreal state command
    have hstate := (runOne_real host settings hreal state command).2
    have hcount (b : Bool) : b.toNat = if b = true then 1 else 0 := by cases b <;> rfl
    rw [hcount, hcount] at hone
    rw [run_cons, List.countP_cons, List.countP_cons, ih, hstate, callsOf_cons, outcomes_append,
      List.countP_append]
    omega

/-- A real run writes nothing itself. -/
theorem shownText_of_real (state : σ) (commands : List Text) :
    shownText (run host settings state commands).2 = [] := by
  have hnone : (run host settings state commands).2.filterMap Event.line? = [] := by
    induction commands generalizing state with
    | nil => rfl
    | cons command commands ih =>
      have hline : (runOne host settings state command).2.line? = none := by
        rw [runOne, if_neg (by simp [hreal])]
        split <;> rfl
      rw [run_cons, List.filterMap_cons, hline, ih]
  rw [shownText, hnone]
  rfl

end Real

/-! ## The report -/

/-- A batch takes all its commands in order, and no failure stops it. Each command is an attempt. A
real run calls its host with the words of each command that has some, once and in order, writes
nothing itself, and has as many failures as there are commands that cannot be split and calls without
success. A dry run calls no host, has no failure, and writes each command as it is shown. So there
are no more failures than attempts, and the exit code is one when a command fails and zero otherwise;
and what two batches call, write and report one after the other is what they do together. -/
theorem report_run (state : σ) (xs ys : List Text) :
    let batch := run host settings state xs
    let report := Summary.ofEvents batch.2
    let next := run host settings batch.1 ys
    let whole := run host settings state (xs ++ ys)
    report.attempted = xs.length ∧
      (settings.dryRun = false →
        batch.2.filterMap Event.words? = callsOf settings xs ∧
          batch.1 = stateAfter host state (callsOf settings xs) ∧ shownText batch.2 = [] ∧
          report.failed = xs.countP (isUnsplit settings) +
            (outcomes host state (callsOf settings xs)).countP isFailed) ∧
      (settings.dryRun = true →
        batch.2.filterMap Event.words? = [] ∧ batch.1 = state ∧
          shownText batch.2 = xs.flatMap (fun c => Command.display settings c ++ ['\n']) ∧
          report.failed = 0) ∧
      report.failed ≤ report.attempted ∧
      (report.exitCode = 0 ∨ report.exitCode = 1) ∧
      (report.exitCode = 1 ↔ settings.dryRun = false ∧
        ∃ before command behind, xs = before ++ command :: behind ∧
          Fails host settings (run host settings state before).1 command) ∧
      Summary.ofEvents whole.2 = report + Summary.ofEvents next.2 ∧
      whole.2.filterMap Event.words? =
        batch.2.filterMap Event.words? ++ next.2.filterMap Event.words? ∧
      shownText whole.2 = shownText batch.2 ++ shownText next.2 ∧ whole.1 = next.1 := by
  intro batch report next whole
  have hwhole : whole = (next.1, batch.2 ++ next.2) := run_append host settings state xs ys
  refine ⟨length_run host settings state xs, fun hreal => ?_, fun hdry => ?_,
    Summary.failed_le_attempted batch.2, report.exitCode_cases, ?_, ?_⟩
  · obtain ⟨hcalls, hstate⟩ := run_real host settings hreal state xs
    exact ⟨hcalls, hstate, shownText_of_real host settings hreal state xs,
      countP_isFailure_run host settings hreal state xs⟩
  · have hbatch : batch = (state, xs.map fun c => .shown (Command.display settings c)) :=
      run_dry host settings hdry state xs
    have hfailed : report.failed = batch.2.countP Event.isFailure := rfl
    rw [hfailed, hbatch]
    refine ⟨?_, rfl, ?_, ?_⟩
    · simp [Event.words?]
    · simp [shownText, Event.line?, List.flatMap_map, Function.comp_def]
    · simp [Event.isFailure]
  · refine Summary.exitCode_ofEvents.trans ?_
    rcases Bool.eq_false_or_eq_true settings.dryRun with hdry | hreal
    · exact iff_of_false (isFailure_of_dryRun hdry) (by simp [hdry])
    · exact (exists_isFailure_run hreal).trans (by simp [hreal])
  · rw [hwhole]
    refine ⟨Summary.ofEvents_append batch.2 next.2, List.filterMap_append, ?_, rfl⟩
    simp [shownText]

/-- A host that counts its calls and knows two programs. -/
def twoProgramHost : Host Nat where
  start n words :=
    (n + 1, match words with
      | ['t'] :: _ => .ok (.exited 0)
      | ['f'] :: _ => .ok (.exited 1)
      | program :: _ => .error (.notFound program)
      | [] => .error .emptyCommand)

/-- A failure, a success, a program that is not there, an open quote and a command without words:
the batch goes through all of them. -/
def mixedCommands : List Text := [['f'], ['t'], ['x'], "t 'a".toList, []]

theorem report_mixedCommands :
    (({} : Settings).dryRun = false ∧
      Summary.ofEvents (run twoProgramHost {} 0 mixedCommands).2 = ⟨5, 3⟩ ∧
      (run twoProgramHost {} 0 mixedCommands).2.filterMap Event.words? =
        [[['f']], [['t']], [['x']]] ∧
      (run twoProgramHost {} 0 mixedCommands).1 = 3) ∧
    ({ dryRun := true } : Settings).dryRun = true ∧
      Summary.ofEvents (run twoProgramHost { dryRun := true } 0 mixedCommands).2 = ⟨5, 0⟩ ∧
      shownText (run twoProgramHost { dryRun := true } 0 mixedCommands).2 =
        "f\nt\nx\nt 'a\n\n".toList := by
  have hreal : ({} : Settings).dryRun = false := rfl
  have hdry : ({ dryRun := true } : Settings).dryRun = true := rfl
  obtain ⟨hattempted, hrun, -⟩ := report_run twoProgramHost {} 0 mixedCommands []
  obtain ⟨hcalls, hstate, -, hfailed⟩ := hrun hreal
  obtain ⟨hshownAttempted, -, hshow, -⟩ :=
    report_run twoProgramHost { dryRun := true } 0 mixedCommands []
  obtain ⟨-, -, hshown, hnoneFailed⟩ := hshow hdry
  have hnames : callsOf {} mixedCommands = [[['f']], [['t']], [['x']]] := by decide
  refine ⟨⟨hreal, ?_, hcalls.trans hnames, hstate.trans (by rw [hnames]; rfl)⟩, hdry,
    congrArg₂ Summary.mk hshownAttempted hnoneFailed, hshown.trans (by decide)⟩
  rw [hnames] at hfailed
  exact congrArg₂ Summary.mk hattempted (hfailed.trans (by decide))

end Batch

end Fanout
