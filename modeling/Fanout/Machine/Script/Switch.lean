import Fanout.Text.Basic

/-!
# Switches of a shell

A shell has switches that change how it runs scripts. Each has a name, and most have a letter, too.
They are turned on and off where a shell is started, and by a script itself.

* `Switch.table`: the letters and names.
* `changeSwitches`: what a row of arguments does to switches.
-/

namespace Fanout

/-- A switch of a shell. -/
inductive Switch where
  /-- A command that fails ends the shell. -/
  | exitOnFailure
  /-- Wildcards stand for themselves. -/
  | plainNames
  | ignoreEnd
  | interactive
  | jobControl
  /-- Commands are read, but nothing is done. -/
  | idle
  | fromInput
  /-- Commands are shown before they run. -/
  | traced
  /-- Scripts are shown as they are read. -/
  | echoed
  | vi
  | emacs
  /-- No file is written over. -/
  | keepsFiles
  /-- Variables that are set are passed on to programs. -/
  | exportsAll
  | notifies
  /-- Parameters have to be set. -/
  | strict
  | privileged
  | noLog
  | debug
  deriving DecidableEq, Repr

/-- The letters and names of the switches, in the order they are listed. -/
def Switch.table : List (Switch × Option Char × String) :=
  [(.exitOnFailure, 'e', "errexit"), (.plainNames, 'f', "noglob"), (.ignoreEnd, 'I', "ignoreeof"),
   (.interactive, 'i', "interactive"), (.jobControl, 'm', "monitor"), (.idle, 'n', "noexec"),
   (.fromInput, 's', "stdin"), (.traced, 'x', "xtrace"), (.echoed, 'v', "verbose"),
   (.vi, 'V', "vi"), (.emacs, 'E', "emacs"), (.keepsFiles, 'C', "noclobber"),
   (.exportsAll, 'a', "allexport"), (.notifies, 'b', "notify"), (.strict, 'u', "nounset"),
   (.privileged, 'p', "privileged"), (.noLog, none, "nolog"), (.debug, none, "debug")]

namespace Switch

/-- The switch with the letter. -/
def ofLetter? (c : Char) : Option Switch :=
  (table.find? fun (_, letter, _) => letter = some c).map Prod.fst

/-- The switch with the name. -/
def ofName? (t : Text) : Option Switch :=
  (table.find? fun (_, _, name) => name.toList = t).map Prod.fst

end Switch

/-- The letters of switches, as a script can ask for them. -/
def switchLetters (on : List Switch) : Text :=
  (Switch.table.reverse.filter (on.contains ·.1)).filterMap (·.2.1)

/-- All switches with their states, as a list for readers or as commands that restore them. -/
def switchList (asCommands : Bool) (on : List Switch) : Text :=
  let line (entry : Switch × Option Char × String) : Text :=
    let name := entry.2.2.toList
    let isOn := on.contains entry.1
    if asCommands then
      "set ".toList ++ (if isOn then '-' else '+') :: "o ".toList ++ name ++ ['\n']
    else name ++ List.replicate (16 - name.length) ' '
      ++ (if isOn then "on\n" else "off\n").toList
  (if asCommands then [] else "Current option settings\n".toList) ++ Switch.table.flatMap line

/-- What a row of arguments asks of a shell. -/
structure SwitchRequest where
  /-- The switches that are on then. -/
  on : List Switch
  /-- Lists of switches to write. -/
  lists : Text := []
  /-- The first argument left is a script. -/
  hasScript : Bool := false
  /-- A mark ended the switches; it makes all that follow parameters. -/
  isMarked : Bool := false
  rest : List Text := []

/-- The switch is on, or off, from now on. -/
def setSwitch (value : Bool) (w : Switch) (on : List Switch) : List Switch :=
  if value then w :: on.filter (· ≠ w) else on.filter (· ≠ w)

/-- One argument with letters. At the start of a shell there is a letter for a script, too. The
fault is a letter or a name that is unknown. -/
def changeByLetters (atStart value : Bool) : Text → SwitchRequest → Except Text SwitchRequest
  | [], r => .ok r
  | c :: cs, r =>
    if c = 'c' && atStart then changeByLetters atStart value cs { r with hasScript := true }
    else if c = 'l' && atStart then changeByLetters atStart value cs r
    else if c = 'o' then
      match r.rest with
      | [] =>
        let shown := if atStart then Switch.table.map Prod.fst else r.on
        changeByLetters atStart value cs { r with lists := r.lists ++ switchList (!value) shown }
      | name :: rest =>
        match Switch.ofName? name with
        | some w => changeByLetters atStart value cs { r with on := setSwitch value w r.on, rest }
        | none => .error ("Illegal option -o ".toList ++ name)
    else match Switch.ofLetter? c with
      | some w => changeByLetters atStart value cs { r with on := setSwitch value w r.on }
      | none => .error ("Illegal option -".toList ++ [c])

/-- The switches behind the arguments that are meant for them. -/
def changeSwitches (atStart : Bool) : Nat → SwitchRequest → Except Text SwitchRequest
  | 0, r => .ok r
  | n + 1, r =>
    match r.rest with
    | ['-', '-'] :: rest => .ok { r with rest, isMarked := true }
    | ['-'] :: rest =>
      let on := if atStart then r.on else r.on.filter fun w => w ≠ .traced && w ≠ .echoed
      .ok { r with rest, on }
    | ('-' :: letters) :: rest => do
      changeSwitches atStart n (← changeByLetters atStart true letters { r with rest })
    | ('+' :: letters) :: rest => do
      changeSwitches atStart n (← changeByLetters atStart false letters { r with rest })
    | _ => .ok r

end Fanout
