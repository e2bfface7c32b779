import Fanout.Text.Basic

/-!
# Splitting a line into words

A line is read the way a POSIX shell finds its words: blanks part words, quotes and backslashes
keep characters together, a hash where a word could begin starts a comment. Nothing is expanded.

* `Splitter`: the reading in progress, as a state machine over characters.
* `split`: all words of a line; there are none to give when a quote stays open.
-/

namespace Fanout

namespace ShellWord

/-- Where a reading stands. -/
inductive Phase where
  /-- Between words. -/
  | delimiter
  /-- Between words, behind a backslash. -/
  | backslash
  /-- In a word, outside quotes. -/
  | unquoted
  /-- In a word outside quotes, behind a backslash. -/
  | unquotedBackslash
  /-- In single quotes. -/
  | singleQuoted
  /-- In double quotes. -/
  | doubleQuoted
  /-- In double quotes, behind a backslash. -/
  | doubleQuotedBackslash
  /-- In a comment. -/
  | comment
  deriving DecidableEq, Repr

/-- A reading in progress: the words that are complete, and the one that is growing. -/
structure Splitter where
  phase : Phase := .delimiter
  /-- The word that is growing, last character first. -/
  word : Text := []
  /-- The complete words, last word first. -/
  words : List Text := []
  deriving DecidableEq, Repr

namespace Splitter

/-- The character joins the word, and the reading goes on in `phase`. -/
def push (s : Splitter) (phase : Phase) (c : Char) : Splitter :=
  { s with phase, word := c :: s.word }

/-- The reading goes on in `phase`. -/
def enter (s : Splitter) (phase : Phase) : Splitter := { s with phase }

/-- The word is complete. -/
def close (s : Splitter) : Splitter := ⟨.delimiter, [], s.word.reverse :: s.words⟩

/-- Space, tab and newline part words. -/
def parts (c : Char) : Bool := c = ' ' || c = '\t' || c = '\n'

/-- The characters a backslash escapes between double quotes. -/
def escapedInDouble (c : Char) : Bool := c = '$' || c = '\x60' || c = '"' || c = '\\'

/-- One more character. -/
def step (s : Splitter) (c : Char) : Splitter :=
  match s.phase with
  | .delimiter =>
    if c = '\'' then s.enter .singleQuoted
    else if c = '"' then s.enter .doubleQuoted
    else if c = '\\' then s.enter .backslash
    else if parts c then s
    else if c = '#' then s.enter .comment
    else s.push .unquoted c
  | .backslash => if c = '\n' then s.enter .delimiter else s.push .unquoted c
  | .unquoted =>
    if c = '\'' then s.enter .singleQuoted
    else if c = '"' then s.enter .doubleQuoted
    else if c = '\\' then s.enter .unquotedBackslash
    else if parts c then s.close
    else s.push .unquoted c
  | .unquotedBackslash => if c = '\n' then s.enter .unquoted else s.push .unquoted c
  | .singleQuoted => if c = '\'' then s.enter .unquoted else s.push .singleQuoted c
  | .doubleQuoted =>
    if c = '"' then s.enter .unquoted
    else if c = '\\' then s.enter .doubleQuotedBackslash
    else s.push .doubleQuoted c
  | .doubleQuotedBackslash =>
    if c = '\n' then s.enter .doubleQuoted
    else if escapedInDouble c then s.push .doubleQuoted c
    else (s.push .doubleQuoted '\\').push .doubleQuoted c
  | .comment => if c = '\n' then s.enter .delimiter else s

/-- The words at the end of the line. A backslash that ends the line stands for itself; an open
quote leaves no words at all. -/
def finish (s : Splitter) : Option (List Text) :=
  match s.phase with
  | .delimiter | .comment => some s.words.reverse
  | .unquoted => some s.close.words.reverse
  | .backslash | .unquotedBackslash => some (s.push .unquoted '\\').close.words.reverse
  | .singleQuoted | .doubleQuoted | .doubleQuotedBackslash => none

/-- The reading after a whole text. -/
def run (s : Splitter) (t : Text) : Splitter := t.foldl step s

@[simp] theorem run_nil (s : Splitter) : s.run [] = s := rfl

@[simp] theorem run_cons (s : Splitter) (c : Char) (t : Text) :
    s.run (c :: t) = (s.step c).run t := rfl

theorem run_append (s : Splitter) (t u : Text) : s.run (t ++ u) = (s.run t).run u := by
  simp [run, List.foldl_append]

end Splitter

/-- The words of a line, or nothing when a quote stays open. -/
def split (line : Text) : Option (List Text) := (Splitter.run {} line).finish

end ShellWord

end Fanout
