import Fanout.Fault.Report
import Fanout.Fault.System

/-!
# Fatal faults

Every reason for which a template is refused, as a cause. A fault is found before any command
runs.

* `Fault.report`: what a user sees of a fault.
* `Stop`: why a line has no commands. Beside the faults, a list can be too long for memory; that is
  no finding about the template, and nothing is reported.
-/

namespace Fanout

/-- The file system nodes that a directive asks for. -/
inductive NodeKind where
  | files
  | dirs
  | all
  deriving DecidableEq, Repr

namespace NodeKind

/-- The word that asks for the kind. -/
def name : NodeKind → Text
  | .files => "files".toList
  | .dirs => "dirs".toList
  | .all => "all".toList

end NodeKind

/-- What is wrong with a glob pattern. -/
inductive PatternProblem where
  /-- More than two asterisks in a row. -/
  | wildcards
  /-- Two asterisks beside other characters. -/
  | recursiveWildcards
  /-- A bracket that opens no class. -/
  | invalidRange
  deriving DecidableEq, Repr

namespace PatternProblem

/-- The text of the problem. -/
def message : PatternProblem → Text
  | .wildcards => "wildcards are either regular \x60*\x60 or recursive \x60**\x60".toList
  | .recursiveWildcards => "recursive wildcards must form a single path component".toList
  | .invalidRange => "invalid range pattern".toList

end PatternProblem

/-- A malformed glob pattern: what is wrong, and at which character. -/
structure PatternFault where
  position : Nat
  problem : PatternProblem
  deriving DecidableEq, Repr

namespace PatternFault

/-- The text of the fault. -/
def message (f : PatternFault) : Text :=
  "Pattern syntax error near position ".toList ++ Text.numeral f.position ++ [':', ' ']
    ++ f.problem.message

end PatternFault

/-- Why a template is refused. Groups are counted from zero. -/
inductive Fault where
  /-- A flag in front of the template that is not known. -/
  | unknownFlag (flag : Text)
  /-- The group opened at a byte offset is never closed. -/
  | unterminatedGroup (delimiter : Char) (position : Nat)
  /-- The template has another number of slots than there are groups. -/
  | slotMismatch (slots groups : Nat)
  /-- A group refers back to group number zero. -/
  | zeroBackref (group : Nat)
  /-- A group refers to a group that does not come before it. -/
  | forwardBackref (group target : Nat)
  /-- A range whose bounds are the same number. -/
  | emptyRange (first last : Text)
  /-- A range bound that is no machine word. -/
  | rangeBound (bound : Text)
  /-- An absolute pattern behind an external path. -/
  | mixedPaths (kind : NodeKind) (pattern : Text)
  /-- A pattern that is not well formed. -/
  | malformedPattern (pattern : Text) (fault : PatternFault)
  /-- A directory that could not be listed while matching. -/
  | unreadableDirectory (path : Text)
  /-- A match whose type the system does not tell. -/
  | unknownNode (path : Text) (fault : IoFault)
  /-- No match of the wanted kind. -/
  | noMatches (kind : NodeKind) (pattern : Text) (external : Option Text)
  /-- A match that does not lie inside the external path. -/
  | outside (path base : Text)
  /-- A file of lines that could not be opened. -/
  | linesUnopened (path : Text) (fault : IoFault)
  /-- A file of lines that could not be read. -/
  | linesUnread (path : Text) (fault : IoFault)
  /-- Standard input that could not be read. -/
  | inputUnread (fault : IoFault)
  deriving DecidableEq, Repr

namespace Fault

/-- The class of a fault. -/
def kind : Fault → FaultKind
  | .unknownFlag _ => .usage
  | .unterminatedGroup .. | .slotMismatch .. => .parse
  | .zeroBackref _ | .forwardBackref .. => .backref
  | .emptyRange .. | .rangeBound _ => .range
  | .mixedPaths .. => .mixedPaths
  | .malformedPattern .. => .glob
  | .unreadableDirectory _ | .unknownNode .. => .stat
  | .noMatches .. => .noMatches
  | .outside .. => .path
  | .linesUnopened .. | .linesUnread .. => .lines
  | .inputUnread _ => .io

/-- The exit code of a run that ends with the fault. -/
def exitCode (f : Fault) : Nat := f.kind.exitCode

/-- The message of a fault. -/
def message : Fault → Text
  | .unknownFlag flag => "Flag not recognised (".toList ++ flag ++ [')']
  | .unterminatedGroup d _ => "Unterminated group opened with '".toList ++ [d, '\'']
  | .slotMismatch slots groups =>
    "Template has ".toList ++ Text.numeral slots ++ " placeholders for ".toList
      ++ Text.numeral groups ++ " groups".toList
  | .zeroBackref group => "Invalid backref 0 in group ".toList ++ Text.numeral (group + 1)
  | .forwardBackref group target =>
    "Forward references are not possible: group ".toList ++ Text.numeral (group + 1)
      ++ " refers to group ".toList ++ Text.numeral target
  | .emptyRange .. => "Integer range starts and ends on the same number".toList
  | .rangeBound bound => "Range bound ".toList ++ bound ++ " is too large".toList
  | .mixedPaths .. =>
    ("Can't mix an immediately preceding path with an absolute path in a " ++
      "files/dirs/all directive").toList
  | .malformedPattern pattern fault =>
    "Invalid pattern ".toList ++ pattern ++ [':', ' '] ++ fault.message
  | .unreadableDirectory path => "Couldn't read ".toList ++ path
  | .unknownNode path fault => "Couldn't stat ".toList ++ path ++ [':', ' '] ++ fault.message
  | .noMatches kind pattern external =>
    "No nodes matched (kind:".toList ++ kind.name ++ " / pattern:".toList ++ pattern
      ++ " / external path:".toList ++ external.getD [] ++ [')']
  | .outside path base => path ++ " is not inside ".toList ++ base
  | .linesUnopened path fault => "Couldn't open ".toList ++ path ++ [':', ' '] ++ fault.message
  | .linesUnread path fault => "Couldn't read ".toList ++ path ++ [':', ' '] ++ fault.message
  | .inputUnread fault => fault.message

/-- A hint that may help with a fault. -/
def hint : Fault → Option Text
  | .unknownFlag _ => some "try using lup -h to see the help".toList
  | .unterminatedGroup d _ =>
    some ("Close the group with another '".toList ++ [d]
      ++ "' or escape a literal one as \\".toList ++ [d])
  | .zeroBackref _ => some "Backrefs count groups from 1".toList
  | .forwardBackref group _ =>
    some ("A backref can only name one of the ".toList ++ Text.numeral group
      ++ " groups before it".toList)
  | .emptyRange first last =>
    some (first ++ ['.', '.'] ++ last ++ " would only produce one value".toList)
  | .mixedPaths kind pattern => some (kind.name ++ [':'] ++ pattern)
  | .linesUnopened .. => some "lines: expects a readable text file".toList
  | .inputUnread _ => some "while reading stdin".toList
  | _ => none

/-- The byte offset of a fault in the command line, where it has one. -/
def position : Fault → Option Nat
  | .unterminatedGroup _ n => some n
  | _ => none

/-- What a user sees of a fault. -/
def report (f : Fault) : Report := ⟨f.kind, f.message, f.hint, f.position⟩

end Fault

/-- Why a line has no commands. -/
inductive Stop where
  /-- The line is refused. -/
  | fault (fault : Fault)
  /-- A list would be longer than any list in memory. -/
  | overflow
  deriving DecidableEq, Repr

namespace Stop

/-- The exit code of a run that stops. A run that does not refuse its line but breaks off has one of
its own. -/
def exitCode : Stop → Nat
  | .fault f => f.exitCode
  | .overflow => 101

variable {α : Type}

/-- What can only be refused, where lists can also be too long. -/
def lift (x : Except Fault α) : Except Stop α := x.mapError .fault

@[simp] theorem lift_ok (a : α) : lift (.ok a) = .ok a := rfl

@[simp] theorem lift_error (f : Fault) : lift (.error f : Except Fault α) = .error (.fault f) := rfl

theorem lift_eq_ok {x : Except Fault α} {a : α} : lift x = .ok a ↔ x = .ok a := by
  cases x <;> simp

end Stop

end Fanout
