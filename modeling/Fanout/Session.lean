import Fanout.Arguments
import Fanout.Batch.Run
import Fanout.Build

/-!
# A run of the program

A run is called with arguments, an environment and standard input. Its arguments may ask for a
text; otherwise its input is captured, its template is built, and then, only then, the commands
are run. The first fault on the way ends the run with nothing written and nothing started. What the
run sees of the system, its files and the host of its commands, is given by the caller.

* `captureInput`: the input that commands get piped in.
* `run`: how a run ends, and the state of the host behind it.
* `Ending.code`, `Ending.output`, `Ending.complaint?`: what the caller sees of an ending.
-/

namespace Fanout

namespace Session

/-- What the program is called with. -/
structure Call where
  arguments : List Text
  environment : Environment := {}
  /-- The bytes of standard input, unless it is a terminal. -/
  input : Option ByteArray := none

/-- The character ends a line. -/
def isLineBreak (c : Char) : Bool := c = '\n' || c = '\r'

/-- The input without the line breaks it ends with. No input is left when that is empty. -/
def normalizeInput (t : Text) : Option Text :=
  let kept := (t.reverse.dropWhile isLineBreak).reverse
  if kept.isEmpty then none else some kept

/-- The input that commands get piped in. It has to be text. -/
def captureInput : Option ByteArray → Except Fault (Option Text)
  | none => .ok none
  | some bytes =>
    match Text.ofUtf8? bytes with
    | some t => .ok (normalizeInput t)
    | none => .error (.inputUnread .notUtf8)

/-- How a run ends. -/
inductive Ending where
  /-- A text was asked for. -/
  | told (text : Text)
  /-- A fault was found before there was a line. -/
  | refused (fault : Fault)
  /-- A fault was found in the line. -/
  | refusedLine (line : Text) (fault : Fault)
  /-- A list of the line was too long. The run breaks off, and what is said about that is not its
  own. -/
  | aborted
  /-- The commands were run. -/
  | ran (events : List Batch.Event)
  deriving Repr

namespace Ending

/-- The exit code of the run. -/
def code : Ending → Nat
  | .told _ => 0
  | .refused fault | .refusedLine _ fault => fault.exitCode
  | .aborted => Stop.overflow.exitCode
  | .ran events => (Batch.Summary.ofEvents events).exitCode

/-- What the program itself writes to standard output. -/
def output : Ending → Text
  | .told text => text ++ ['\n']
  | .refused _ | .refusedLine .. | .aborted => []
  | .ran events => Batch.shownText events

/-- What the program writes to standard error when it refuses to run. -/
def complaint? : Ending → Option Text
  | .told _ | .aborted | .ran _ => none
  | .refused fault => some ("lup: ".toList ++ fault.report.summary ++ ['\n'])
  | .refusedLine line fault => some ("lup: ".toList ++ fault.report.render line ++ ['\n'])

/-- The reports about single commands. -/
def messages : Ending → List Text
  | .ran events => events.filterMap Batch.Event.message?
  | _ => []

end Ending

variable {σ : Type}

/-- The line of a run, built and run. -/
def runLine (host : Host σ) (tree : FileTree) (settings : Settings) (state : σ) (line : Text) :
    σ × Ending :=
  match buildLine tree settings.style line with
  | .error (.fault fault) => (state, .refusedLine line fault)
  | .error .overflow => (state, .aborted)
  | .ok generator =>
    let (state, events) := Batch.run host settings state generator.commands
    (state, .ran events)

/-- What is said about a run beside its results: a delimiter that cannot be used, and groups
without a term. -/
def warnings (tree : FileTree) (call : Call) : List Text :=
  let settings := Settings.ofEnvironment call.environment
  let groups := match readArguments settings call.arguments, captureInput call.input with
    | .ok (.run settings tokens), .ok _ =>
      (emptyGroups tree settings.style (ShellWord.join tokens)).map emptyGroupWarning
    | _, _ => []
  (delimiterWarning? call.environment).toList ++ groups

/-- A run of the program. -/
def run (host : Host σ) (tree : FileTree) (state : σ) (call : Call) : σ × Ending :=
  match readArguments (Settings.ofEnvironment call.environment) call.arguments with
  | .error fault => (state, .refused fault)
  | .ok .help => (state, .told usageText)
  | .ok .version => (state, .told versionText)
  | .ok (.run settings tokens) =>
    match captureInput call.input with
    | .error fault => (state, .refused fault)
    | .ok input =>
      runLine host tree { settings with input } state (ShellWord.join tokens)

end Session

end Fanout
