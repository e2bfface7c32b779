import Fanout.Text.Numeral
import Fanout.Text.Offset

/-!
# Reports

A report is what a user sees of a fatal fault: its kind, a message, a hint that may help, and the
byte offset in the command line where it was found. The kind decides the exit code.

* `summary`: kind, message and hint.
* `render`: the same with a window of the command line around the offset, and a caret below the
  character there. The window reaches fifteen bytes either way and never cuts a character.
-/

namespace Fanout

/-- The classes of fatal faults, one exit code each. -/
inductive FaultKind where
  /-- A flag that is not known. -/
  | usage
  /-- A group that is opened and never closed. -/
  | parse
  /-- A back reference to no earlier group. -/
  | backref
  /-- A range with equal bounds, or bounds that are no numbers. -/
  | range
  /-- An external path in front of an absolute pattern. -/
  | mixedPaths
  /-- A file system directive without a match. -/
  | noMatches
  /-- A match whose type could not be found. -/
  | stat
  /-- A match outside its external path. -/
  | path
  /-- A file of lines that could not be read. -/
  | lines
  /-- A malformed pattern. -/
  | glob
  /-- Any other failure to read. -/
  | io
  deriving DecidableEq, Repr

namespace FaultKind

/-- The exit code of a run that ends with such a fault. -/
def exitCode : FaultKind → Nat
  | .usage => 2
  | .parse => 3
  | .backref => 4
  | .range => 6
  | .mixedPaths => 7
  | .noMatches => 8
  | .stat => 9
  | .path => 10
  | .lines => 11
  | .glob => 12
  | .io => 13

/-- The heading of a report. -/
def title : FaultKind → Text
  | .usage => "Usage error".toList
  | .parse => "Parse error".toList
  | .backref => "Backref error".toList
  | .range => "Range error".toList
  | .mixedPaths => "Path error".toList
  | .noMatches => "No matches".toList
  | .stat => "Stat error".toList
  | .path => "Path error".toList
  | .lines => "Lines error".toList
  | .glob => "Glob error".toList
  | .io => "I/O error".toList

end FaultKind

/-- What a user sees of a fatal fault. -/
structure Report where
  kind : FaultKind
  message : Text
  hint : Option Text := none
  /-- Byte offset in the command line. -/
  position : Option Nat := none
  deriving DecidableEq, Repr

namespace Report

/-- The exit code of the report's kind. -/
def exitCode (r : Report) : Nat := r.kind.exitCode

/-- Heading and message. -/
def headline (r : Report) : Text := r.kind.title ++ [':', ' '] ++ r.message

/-- The line for the hint, when there is one. -/
def hintLine (r : Report) : Text :=
  match r.hint with
  | some hint => "\n  hint: ".toList ++ hint
  | none => []

/-- The report without the command line. -/
def summary (r : Report) : Text := r.headline ++ r.hintLine

/-! ## The window on the command line -/

/-- How far the window reaches to either side, in bytes. -/
def reach : Nat := 15

/-- What the window shows in front of the character at byte offset `n`. -/
def windowBefore (line : Text) (n : Nat) : Text :=
  Text.beyond (Text.byteLength (Text.upTo (n - reach) line)) (Text.upTo n line)

/-- What the window shows from the character at byte offset `n` on. -/
def windowFrom (line : Text) (n : Nat) : Text :=
  Text.beyond n (Text.upTo (n + reach) line)

/-- A newline is shown as an arrow. -/
def showNewlines (t : Text) : Text := t.map fun c => if c = '\n' then '↵' else c

/-- The window and, on the next line, a caret below the character at byte offset `n`. -/
def pointer (line : Text) (n : Nat) : Text :=
  "\n  near: '".toList ++ showNewlines (windowBefore line n ++ windowFrom line n) ++ ['\'', '\n']
    ++ List.replicate (2 + (windowBefore line n).length + 7) ' ' ++ ['^']

/-- Where in the command line the fault was found. An offset that is not the start of a character
can only be named. -/
def place (line : Text) (n : Nat) : Text :=
  if n < Text.byteLength line && Text.isBoundary n line then pointer line n
  else "\n  at position ".toList ++ Text.numeral n ++ " (end of input)".toList

/-- The report with the place in the command line. -/
def render (r : Report) (line : Text) : Text :=
  r.headline ++ (match r.position with | some n => place line n | none => []) ++ r.hintLine

end Report

end Fanout
