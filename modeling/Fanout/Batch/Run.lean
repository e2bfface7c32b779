import Fanout.Batch.Command
import Fanout.Batch.Outcome

/-!
# Running a batch

Commands run one after another, each to its end. A command that fails, cannot be started or cannot
be split is counted and reported, and the batch goes on. A dry run shows the commands and starts
nothing.

What a batch does is a row of events, one for each command; counts, messages and output are read
off it. Programs are started by a `Host`, which may be any machine: its state is passed from one
program to the next.

* `run`: the events of a batch, and the host's state behind it.
* `Summary.ofEvents`: how many commands there were, and how many failed.
-/

namespace Fanout

/-- A machine that starts programs: what comes of a row of words, and the state it leaves. -/
structure Host (σ : Type) where
  start : σ → List Text → σ × Except StartFailure ExitStatus

namespace Batch

/-- What became of one command. -/
inductive Event where
  /-- A dry run showed it. -/
  | shown (line : Text)
  /-- It leaves a quote open. -/
  | unsplittable (command : Text)
  /-- It has no words, so there was nothing to do. -/
  | idle
  /-- Its words were given to the host. -/
  | started (command : Text) (words : List Text) (outcome : Except StartFailure ExitStatus)
  deriving Repr

namespace Event

/-- The command counts as failed. -/
def isFailure : Event → Bool
  | .shown _ | .idle => false
  | .unsplittable _ => true
  | .started _ _ (.error _) => true
  | .started _ _ (.ok status) => !status.isSuccess

/-- What is reported about a failed command. -/
def message? : Event → Option Text
  | .shown _ | .idle => none
  | .unsplittable command => some (Command.unsplittable ++ [':', ' '] ++ command)
  | .started _ _ (.error f) => some f.message
  | .started command _ (.ok status) =>
    if status.isSuccess then none
    else some ("command exited with status ".toList ++ Text.numeral status.code ++ [':', ' ']
      ++ command)

/-- The line that a dry run wrote. -/
def line? : Event → Option Text
  | .shown line => some line
  | _ => none

/-- The words that were given to the host. -/
def words? : Event → Option (List Text)
  | .started _ words _ => some words
  | _ => none

end Event

variable {σ : Type}

/-- What becomes of one command. -/
def runOne (host : Host σ) (settings : Settings) (state : σ) (command : Text) : σ × Event :=
  if settings.dryRun then (state, .shown (Command.display settings command))
  else match Command.words? settings command with
    | none => (state, .unsplittable command)
    | some [] => (state, .idle)
    | some words =>
      let (state, outcome) := host.start state words
      (state, .started command words outcome)

/-- What becomes of commands, one after another. -/
def run (host : Host σ) (settings : Settings) (state : σ) : List Text → σ × List Event
  | [] => (state, [])
  | command :: commands =>
    let (state, event) := runOne host settings state command
    let (state, events) := run host settings state commands
    (state, event :: events)

theorem run_cons (host : Host σ) (settings : Settings) (state : σ) (command : Text)
    (commands : List Text) : run host settings state (command :: commands) =
      ((run host settings (runOne host settings state command).1 commands).1,
        (runOne host settings state command).2 ::
          (run host settings (runOne host settings state command).1 commands).2) := rfl

theorem length_run (host : Host σ) (settings : Settings) (state : σ) (commands : List Text) :
    (run host settings state commands).2.length = commands.length := by
  induction commands generalizing state with
  | nil => rfl
  | cons c cs ih => simp [run, ih]

/-- A batch goes on where another one stopped. -/
theorem run_append (host : Host σ) (settings : Settings) (state : σ) (xs ys : List Text) :
    run host settings state (xs ++ ys) =
      let (state, events) := run host settings state xs
      let (state, more) := run host settings state ys
      (state, events ++ more) := by
  induction xs generalizing state with
  | nil => simp [run]
  | cons c cs ih => simp [run, ih]

/-- The counts of a batch. -/
structure Summary where
  attempted : Nat
  failed : Nat
  deriving DecidableEq, Repr

namespace Summary

/-- The counts of a row of events. -/
def ofEvents (events : List Event) : Summary := ⟨events.length, events.countP Event.isFailure⟩

/-- The exit code of a batch: one as soon as a command failed. -/
def exitCode (s : Summary) : Nat := if 0 < s.failed then 1 else 0

end Summary

/-- What a dry run wrote, a line for each command. -/
def shownText (events : List Event) : Text :=
  (events.filterMap Event.line?).flatMap (· ++ ['\n'])

end Batch

end Fanout
