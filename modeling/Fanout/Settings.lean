import Fanout.Path.Component
import Fanout.Template.Reader
import Fanout.Text.Printable
import Fanout.Text.Record

/-!
# Settings

How a run reads its template and runs its commands. The defaults can be changed by the environment:
the delimiter of groups, and the shell that input is piped through.

* `Settings.ofEnvironment`: the settings an environment asks for.
* `delimiterWarning?`: what to say about a delimiter that cannot be used.
-/

namespace Fanout

/-- The interpreter that input is piped through. -/
inductive Shell where
  | posix (program : Text)
  | powerShell
  deriving DecidableEq, Repr

namespace Shell

/-- The name the interpreter is started by. -/
def program : Shell → Text
  | .posix name => name
  | .powerShell => "powershell".toList

/-- The command that writes the input into a pipe. -/
def echo : Shell → Text
  | .posix _ => "echo".toList
  | .powerShell => "Write-Host".toList

/-- The flag in front of a script. -/
def scriptFlag : Shell → Text
  | .posix _ => "-c".toList
  | .powerShell => "-Command".toList

/-- The name without the endings `.exe` it has, from the last to the first; the name is given from
its end. -/
def dropExe : Text → Text
  | 'e' :: 'x' :: 'e' :: '.' :: t => dropExe t
  | t => t

/-- The interpreter of a name. The case of letters does not matter for telling them apart. -/
def ofName (name : Text) : Shell :=
  let base := (dropExe (Text.asciiLower name).reverse).reverse
  if base = "powershell".toList || base = "pwsh".toList then .powerShell else .posix name

/-- The interpreter when nothing asks for another. -/
def fallback : Shell := .posix "sh".toList

end Shell

/-- How a run reads its template and runs its commands. -/
structure Settings where
  style : GroupStyle := {}
  shell : Shell := .fallback
  /-- Commands are shown, not run. -/
  dryRun : Bool := false
  /-- Text that every command gets piped in. -/
  input : Option Text := none
  deriving DecidableEq, Repr

/-- A character that can stand around groups: no blank, and none that shapes words or groups. -/
def isDelimiter (c : Char) : Bool :=
  !Text.isBlank c && !(c = ',' || c = '\\' || c = '\'' || c = '"')

/-! ## Environment -/

/-- The variables that matter to a run, by their bytes. -/
structure Environment where
  delimiter : Option ByteArray := none
  shell : Option ByteArray := none
  loginShell : Option ByteArray := none
  deriving DecidableEq

namespace Environment

/-- The delimiter that is asked for. -/
def delimiterText? (e : Environment) : Option Text := e.delimiter.bind Text.ofUtf8?

/-- The delimiter that is asked for, when it can be one. -/
def delimiter? (e : Environment) : Option Char :=
  match e.delimiterText? with
  | some [c] => if isDelimiter c then some c else none
  | _ => none

/-- The shell that is asked for by name. -/
def shellName? (e : Environment) : Option Text :=
  match e.shell.bind Text.ofUtf8? with
  | some t => if (Text.trim t).isEmpty then none else some (Text.trim t)
  | none => none

/-- The name of the login shell. -/
def loginShellName? (e : Environment) : Option Text :=
  (e.loginShell.bind Text.ofUtf8?).bind fun t => Path.fileName? (Text.trim t)

/-- The shell to use: the one asked for, or else the login shell. -/
def detectShell (e : Environment) : Shell :=
  match e.shellName?, e.loginShellName? with
  | some name, _ => .ofName name
  | none, some name => .ofName name
  | none, none => .fallback

end Environment

/-- What to say about a delimiter that is asked for and cannot be used. -/
def delimiterWarning? (e : Environment) : Option Text :=
  match e.delimiterText?, e.delimiter? with
  | some t, none =>
    some ("ignoring LUP_DELIMITER=".toList ++ Text.shown t
      ++ ": expected one non-structural character".toList)
  | _, _ => none

/-- The settings that an environment asks for. -/
def Settings.ofEnvironment (e : Environment) : Settings :=
  { style := { delimiter := e.delimiter?.getD '@' }
    shell := e.detectShell }

end Fanout
