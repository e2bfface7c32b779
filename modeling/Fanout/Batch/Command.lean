import Fanout.Settings
import Fanout.ShellWord.Quote
import Fanout.ShellWord.Split

/-!
# What a command runs

A command is a line of text. Under a POSIX shell and without input it is split into words and
started as it is. Otherwise a shell gets it as a script; with input, the script pipes the input in
front of the command.

* `words?`: the words that are started, when the command can be split.
* `display`: the command as a dry run shows it.
-/

namespace Fanout

namespace Command

/-- The script that runs a command, with the input piped in front of it. -/
def script (shell : Shell) (input : Option Text) (command : Text) : Text :=
  match input with
  | some text => shell.echo ++ ' ' :: ShellWord.quote text ++ [' ', '|', ' '] ++ command
  | none => command

/-- The words that start a shell with the script of a command. -/
def shellWords (shell : Shell) (input : Option Text) (command : Text) : List Text :=
  [shell.program, shell.scriptFlag, script shell input command]

/-- A command is started as it is: no shell is needed for it. -/
def isDirect (settings : Settings) : Bool :=
  match settings.shell, settings.input with
  | .posix _, none => true
  | _, _ => false

/-- The words that are started for a command, unless it leaves a quote open. -/
def words? (settings : Settings) (command : Text) : Option (List Text) :=
  if isDirect settings then ShellWord.split command
  else some (shellWords settings.shell settings.input command)

/-- The command as a dry run shows it. -/
def display (settings : Settings) (command : Text) : Text :=
  if isDirect settings then command
  else ShellWord.join (shellWords settings.shell settings.input command)

/-- Why a command has no words. -/
def unsplittable : Text := "couldn't split command: missing closing quote".toList

end Command

end Fanout
