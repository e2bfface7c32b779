import Fanout.Machine.Script.Arithmetic
import Fanout.Machine.Script.Expansion
import Fanout.Machine.Script.Signal
import Fanout.Machine.Script.Switch

/-!
# Shells

A shell is a process that runs scripts. Besides the process, its state holds its variables,
functions and switches, how the last command ended, and why the script stops here, if it does.
Copies of a shell run parts of a script on their own; of a copy only what all processes share is
kept.

* `ShellState`: a shell at work.
* `ShellState.assign`: the variable has a value from now on.
* `ShellState.fork`, `ShellState.absorb`: a copy of the shell, and the shell behind it.
* `ShellState.heed`, `ShellState.conclude`: the scripts that a shell runs when it is sent a signal
  and when it ends.
-/

namespace Fanout

/-- Why a script does not go on. -/
inductive Halt where
  /-- The shell has ended. -/
  | ended (status : ExitStatus)
  /-- A command has failed in a shell that ends then. -/
  | failed
  /-- The shell cannot do what it is asked for; a command that is no special one survives it. -/
  | fault
  /-- The function has ended. -/
  | back
  /-- So many loops have ended. -/
  | leave (loops : Nat)
  /-- The outermost of so many loops goes on with its next round. -/
  | again (loops : Nat)
  /-- A loop has no end. -/
  | endless
  deriving DecidableEq, Repr

/-- A command that a script has defined. -/
structure Function where
  body : Script
  /-- How many newlines the script has in which it is defined. -/
  newlines : Nat

/-- What a variable was. -/
structure SavedVariable where
  name : Text
  value : Option Text
  isExported : Bool
  isReadOnly : Bool

/-- What a function or a command brings back when it has ended. -/
structure Frame where
  saved : List SavedVariable := []
  switches : Option (List Switch) := none

/-- Where a script is in reading options: the number of the next argument, and how many letters of
the one before it have been read, if there are any left. -/
structure OptionPlace where
  next : Nat := 1
  letters : Option Nat := none

/-- A shell at work. -/
structure ShellState where
  process : Process
  /-- The name the shell was started by. -/
  name : Text
  /-- The number of the process of the shell that this one is a copy of, or of itself. -/
  leader : Nat
  parameters : List Text := []
  bindings : List (Text × Text) := []
  /-- The names of variables that are passed on to programs. -/
  exported : List Text := []
  /-- The names of variables that cannot be set. -/
  readOnly : List Text := []
  frames : List Frame := []
  functions : List (Text × Function) := []
  aliases : List (Text × Text) := []
  switches : List Switch := []
  /-- The scripts to run when a signal arrives; that of signal zero runs when the shell ends. -/
  traps : List (Nat × Text) := []
  /-- The path of the working directory, with the links that led to it. -/
  directory : Text := []
  /-- The paths of the programs that were found. -/
  found : List (Text × Text) := []
  /-- The processes that nobody waited for, with how they ended if they did. -/
  jobs : List (Nat × Option ExitStatus) := []
  optionPlace : OptionPlace := {}
  /-- How many newlines the script has. -/
  newlines : Nat := 0
  /-- The line of the script that the current command stands on. -/
  line : Nat := 1
  /-- The command that runs the current script, if another one does, with a colon. -/
  within : Text := []
  /-- How many loops the current command is in. -/
  loops : Nat := 0
  /-- How many functions the current command is in. -/
  calls : Nat := 0
  /-- It is looked at how the current command ends. -/
  tested : Bool := false
  /-- How the last command ended, as a number. -/
  status : Nat := 0
  /-- How the last script in a word of the current command ended. -/
  substituted : Nat := 0
  /-- How the command ended that the current trap interrupted. -/
  interrupted : Option Nat := none
  halt : Option Halt := none

/-- What a shell needs from the machine. -/
structure ShellHost where
  /-- Starts the program at a path with words, the first of which is the name it is called by. -/
  start : Text → List Text → Process → Process × Except StartFailure ExitStatus
  /-- Runs a text in a shell. It can be part of a larger one: then the number of newlines in that up
  to its end is given. -/
  interpret : Option Nat → Text → ShellState → ShellState
  /-- Runs the body of a function in a shell. -/
  run : Script → ShellState → ShellState

namespace ShellState

/-! ## Ends and reports -/

/-- The script does not go on. -/
def isHalted (s : ShellState) : Bool := s.halt.isSome

/-- The switch is on. -/
def isOn (s : ShellState) (w : Switch) : Bool := s.switches.contains w

/-- The last command ended so. -/
def settle (s : ShellState) (status : Nat) : ShellState := { s with status }

/-- The shell at the line of its script that has so many newlines behind it. -/
def atLine (s : ShellState) (behind : Nat) : ShellState :=
  { s with line := s.newlines - behind + 1 }

/-- What the shell begins its reports with: its name, the line, and the command at work. -/
def voice (s : ShellState) : Text :=
  s.name ++ [':', ' '] ++ Text.numeral s.line ++ [':', ' '] ++ s.within

/-- A line of the shell on standard error, and how the command ended that is to blame. -/
def report (s : ShellState) (message : Text) (status : Nat) : ShellState :=
  { s with process := s.process.complain (s.voice ++ message), status }

/-- A fault of the shell. -/
def fail (s : ShellState) (message : Text) : ShellState :=
  { s.report message 2 with halt := some .fault }

/-- The shell ends. -/
def finish (s : ShellState) (status : ExitStatus) : ShellState :=
  { s with halt := some (.ended status), status := status.code }

/-- How the shell ended, when its script is over. -/
def ending (s : ShellState) : ExitStatus :=
  match s.halt with
  | some (.ended (.signalled n)) => .signalled n
  | some (.ended (.exited n)) => .exited (n % 256)
  | _ => .exited (s.status % 256)

/-- A failure ends the shell if it is meant to, unless the failure is looked at. -/
def check (s : ShellState) : ShellState :=
  if !s.isHalted && s.status ≠ 0 && !s.tested && s.isOn .exitOnFailure then
    { s with halt := some .failed }
  else s

/-- More text on standard output. -/
def say (s : ShellState) (t : Text) : ShellState := { s with process := s.process.say t }

/-- A process ended by a signal, of which the shell may tell. -/
def tellSignal (s : ShellState) (n : Nat) : ShellState :=
  let process := match Signal.texts.lookup n with
    | some text => s.process.complain text.toList
    | none => s.process
  { s with process, status := (ExitStatus.signalled n).code }

/-! ## Variables -/

/-- The variable has the value from now on. -/
def assign (s : ShellState) (name value : Text) : ShellState :=
  let exported := if s.isOn .exportsAll && !s.exported.contains name then name :: s.exported
    else s.exported
  let s := { s with bindings := (name, value) :: s.bindings.filter (·.1 ≠ name), exported }
  if name = "OPTIND".toList then { s with optionPlace := { next := max 1 (Text.value value) } }
  else if name = "PATH".toList then { s with found := [] }
  else s

/-- The variable has the value from now on, if it can be set. -/
def set (s : ShellState) (name value : Text) : ShellState :=
  if s.readOnly.contains name then s.fail (name ++ ": is read only".toList)
  else s.assign name value

/-- The variable has no value from now on, and is not passed on. -/
def discard (s : ShellState) (name : Text) : ShellState :=
  { s with
    bindings := s.bindings.filter (·.1 ≠ name)
    exported := s.exported.filter (· ≠ name) }

/-- The variable is passed on to programs from now on. -/
def passOn (s : ShellState) (name : Text) : ShellState :=
  { s with exported := name :: s.exported.filter (· ≠ name) }

/-- The variables that programs get. -/
def environment (s : ShellState) : List (Text × Text) :=
  s.bindings.filter fun (name, _) => s.exported.contains name

/-! ### Frames -/

/-- What is brought back from now on belongs to a new frame. -/
def enter (s : ShellState) : ShellState := { s with frames := {} :: s.frames }

/-- The variable is brought back with the current frame. -/
def keep (s : ShellState) (name : Text) : ShellState :=
  match s.frames with
  | [] => s
  | f :: fs =>
    let v : SavedVariable :=
      ⟨name, s.bindings.lookup name, s.exported.contains name, s.readOnly.contains name⟩
    { s with frames := { f with saved := v :: f.saved } :: fs }

/-- The variable is as it was. -/
def restore (s : ShellState) (v : SavedVariable) : ShellState :=
  let others (names : List Text) : List Text := names.filter (· ≠ v.name)
  let s := { s.discard v.name with readOnly := others s.readOnly }
  { s with
    bindings := (v.value.map (v.name, ·)).toList ++ s.bindings
    exported := if v.isExported then v.name :: s.exported else s.exported
    readOnly := if v.isReadOnly then v.name :: s.readOnly else s.readOnly }

/-- The end of the current frame. -/
def depart (s : ShellState) : ShellState :=
  match s.frames with
  | [] => s
  | f :: fs =>
    let s := f.saved.foldl restore { s with frames := fs }
    { s with switches := f.switches.getD s.switches }

/-! ## Parameters -/

/-- What stands between parameters in one text. -/
def joint (s : ShellState) : Text :=
  match s.bindings.lookup "IFS".toList with
  | some separators => separators.take 1
  | none => [' ']

/-- The characters that part arguments. -/
def separators (s : ShellState) : Text :=
  (s.bindings.lookup "IFS".toList).getD usualSeparators

/-- The value of a parameter, if it is set. -/
def value? (s : ShellState) (name : Text) : Option Text :=
  match name with
  | ['?'] => some (Text.numeral s.status)
  | ['$'] => some (Text.numeral s.leader)
  | ['#'] => some (Text.numeral s.parameters.length)
  | ['@'] | ['*'] => some (Text.join s.joint s.parameters)
  | ['!'] => s.jobs.head?.map fun (id, _) => Text.numeral id
  | ['-'] => some (switchLetters s.switches)
  | _ =>
    if Text.isDigits name then
      if Text.value name = 0 then some s.name else s.parameters[Text.value name - 1]?
    else s.bindings.lookup name

/-- The value of a parameter, if it is given: if it is set and, when that matters, not empty. -/
def given? (s : ShellState) (name : Text) (nonempty : Bool) : Option Text :=
  match s.value? name with
  | some v => if nonempty && v.isEmpty then none else some v
  | none => none

/-! ## Copies -/

/-- A copy of the shell as a process of its own. It forgets what to do when a signal arrives,
except for the signals that it does not heed. -/
def fork (s : ShellState) : ShellState :=
  { s with process := s.process.fork, traps := s.traps.filter (·.2.isEmpty) }

/-- The shell is told that a process has ended that it has started, if it wants to know. -/
def hearOfChild (s : ShellState) : ShellState :=
  match s.traps.lookup Signal.childEnded with
  | some (_ :: _) => { s with process := s.process.send s.process.id Signal.childEnded }
  | _ => s

/-- The shell when a copy of it is over, and how that ended. There is no end to a shell either that
waits for a copy without one. -/
def absorb (s copy : ShellState) : ShellState :=
  { s with
    process := s.process.adopt copy.process
    status := copy.ending.code
    halt := if copy.halt = some Halt.endless then copy.halt else s.halt }.hearOfChild

/-! ## Traps -/

/-- Runs a script between two commands, and goes on as if nothing had been. -/
def runTrap (host : ShellHost) (s : ShellState) (script : Text) : ShellState :=
  let interrupted := some (s.interrupted.getD s.status)
  let after := host.interpret none script { s with interrupted, tested := false }
  { after with
    status := if after.isHalted then after.status else s.status
    interrupted := s.interrupted
    tested := s.tested }

/-- Takes the signals that were sent to the shell: one that it has no script for ends it. -/
def heed (host : ShellHost) (s : ShellState) : ShellState :=
  let p := s.process
  let own := (p.signals.filter (·.1 = p.id)).map Prod.snd
  if own.isEmpty then s
  else
    let s := { s with process := { p with signals := p.signals.filter (·.1 ≠ p.id) } }
    let isDeadly (n : Nat) : Bool :=
      Signal.isFinal n
        || !Signal.isHarmless n && !p.ignored.contains n && (s.traps.lookup n).isNone
    match own.find? isDeadly with
    | some n => s.finish (.signalled n)
    | none =>
      let arrived := (List.range Signal.count).filter fun n => own.contains n && !p.ignored.contains n
      arrived.foldl (fun s n =>
        match s.traps.lookup n with
        | some (c :: script) => if s.isHalted then s else s.runTrap host (c :: script)
        | _ => s) s

/-- The end of a shell: a script may be left to run. That cannot change how the shell ended, unless
it ends it itself. -/
def conclude (host : ShellHost) (s : ShellState) : ShellState :=
  match if s.halt = some Halt.endless then none else s.traps.lookup 0, s.ending with
  | some (c :: script), .exited _ =>
    let after := host.interpret none (c :: script)
      { s with
        halt := none
        interrupted := some s.status
        tested := false
        traps := s.traps.filter (·.1 ≠ 0) }
    match after.halt with
    | some (.ended _) | some .failed | some .fault => after.finish after.ending
    | _ => after.finish s.ending
  | _, _ => s

end ShellState

/-- Where a script is done: signals are taken in front of it and behind it. -/
def attend (host : ShellHost) (work : ShellState → ShellState) (s : ShellState) : ShellState :=
  if s.isHalted || s.isOn .idle then s
  else
    let s := s.heed host
    if s.isHalted then s
    else
      let after := work s
      if after.isHalted then after else after.heed host

end Fanout
