import Fanout.Machine.Script.Command
import Fanout.Machine.Script.Redirect

/-!
# Simple commands

A simple command has words, variables to set and redirections. The words are expanded first; then
the channels are led elsewhere, the variables are set, and the command runs. What is set for a
command that is no special one of the shell, and where its channels lead, is for the time it runs.

* `ShellState.runSimple`: what a simple command does to a shell.
-/

namespace Fanout

namespace ShellState

/-- How variables are set in front of a command. -/
inductive Setting where
  /-- They stay as they are set. -/
  | lasting
  /-- They stay, and are passed on to programs. -/
  | passedOn
  /-- They are passed on to the command, and brought back behind it. -/
  | passing
  deriving DecidableEq, Repr

/-- How variables are set in front of a command. -/
def settingFor : List Text → Setting
  | [] => .lasting
  | name :: rest =>
    if !isSpecial name then .passing
    else if name = "exec".toList && !rest.isEmpty then .passedOn
    else .lasting

/-- A variable is set in front of a command. -/
def setFor (how : Setting) (s : ShellState) (name value : Text) : ShellState :=
  match how with
  | .lasting => s.set name value
  | .passedOn => (s.set name value).passOn name
  | .passing => ((s.keep name).set name value).passOn name

/-- The shell with variables set to what words stand for, and the settings as texts. -/
def setAll (host : ShellHost) (how : Setting) :
    List (Text × Word) → ShellState → List Text × ShellState
  | [], s => ([], s)
  | (name, w) :: rest, s =>
    let (value, s) := Word.text host true w s
    let s := if s.isHalted then s else s.setFor how name value
    if s.isHalted then ([], s)
    else
      let (more, s) := setAll host how rest s
      ((name ++ '=' :: value) :: more, s)

/-! ## Traces -/

/-- What stands in front of a command that is shown. -/
def traceFront (host : ShellHost) (s : ShellState) : Text × ShellState :=
  let front := (s.bindings.lookup "PS4".toList).getD []
  let refuse : ScriptSkipper := fun _ t => .error (.unexpectedAt t none)
  match readParts refuse (readingSteps front) .document front with
  | .error _ => (front, s)
  | .ok (parts, _) =>
    let (atoms, after) := Word.expand host parts
      { s with switches := s.switches.filter (· ≠ .traced) }
    (atomText s.joint atoms, { after with switches := s.switches, status := s.status })

/-- Shows a command where standard error led in an earlier state. -/
def trace (host : ShellHost) (old : ShellState) (texts : List Text) (s : ShellState) : ShellState :=
  if s.isOn .traced then
    let (front, s) := s.traceFront host
    let line := front ++ Text.join [' '] texts ++ ['\n']
    match old.process.descriptor? 2 with
    | none => s
    | some d =>
      match s.process.writeTo d (Text.toUtf8 line) with
      | .ok process => { s with process }
      | .error _ => s
  else s

/-! ## Commands -/

/-- Channels stay as a command leads them: it is the one that takes the place of the shell. -/
def keepsChannels (words : List Text) : Bool :=
  let (_, _, words) := unwrap words.length false false words
  words.head? = some "exec".toList

/-- What a simple command does to a shell whose channels are led elsewhere already. -/
def runOpened (host : ShellHost) (old : ShellState) (assignments : List (Text × Word))
    (words : List Text) (s : ShellState) : ShellState :=
  let how := settingFor words
  let (texts, s) := setAll host how assignments (if how = .passing then s.enter else s)
  let after := if s.isHalted then s
    else
      let s := trace host old (texts ++ words) s
      if words.isEmpty then s.settle s.substituted else s.call host words
  if how = .passing then after.depart else after

/-- What a simple command does to a shell. -/
def runSimple (host : ShellHost) (assignments : List (Text × Word)) (words : List Word)
    (redirects : List Redirect) (s : ShellState) : ShellState :=
  let (words, s) := expandArguments host [] words { s with substituted := 0 }
  let (targets, s) := if s.isHalted then ([], s) else expandTargets host redirects s
  if s.isHalted then s
  else
    match ShellState.redirect host targets s with
    | (opened, false) =>
      let failed := opened.reconnect s redirects
      if words.head?.any isSpecial then { failed with halt := some .fault } else failed
    | (opened, true) =>
      let after := runOpened host s assignments words opened
      if keepsChannels words && after.halt ≠ some .fault then after
      else after.reconnect s redirects

end ShellState

end Fanout
