import Fanout.Machine.Script.Redirect

/-!
# Arguments of commands of the shell

Some commands are no programs: they change the shell, or are built into it for speed. They read
their arguments in one manner: letters behind a dash come first, and numbers are rows of digits.

* `Builtin`: a command of the shell.
* `ShellState.withFlags`, `ShellState.withNumber`: what a command does with its arguments.
-/

namespace Fanout

/-- A command of the shell. -/
abbrev Builtin := ShellHost → List Text → ShellState → ShellState

/-- Letters with their values, and the arguments behind them. -/
abbrev Flags := List (Char × Text) × List Text

/-- A row of letters: those with a value take the rest of the row, or else the next argument. -/
def readFlagRow (letters valued : List Char) : Text → List Text → Except Text Flags
  | [], rest => .ok ([], rest)
  | c :: cs, rest =>
    if valued.contains c then
      match cs, rest with
      | _ :: _, _ => .ok ([(c, cs)], rest)
      | [], value :: rest => .ok ([(c, value)], rest)
      | [], [] => .error ("No arg for -".toList ++ c :: " option".toList)
    else if letters.contains c then do
      let (more, rest) ← readFlagRow letters valued cs rest
      .ok ((c, []) :: more, rest)
    else .error ("Illegal option -".toList ++ [c])

/-- The letters at the start of arguments. A lone dash is no row of letters, and two dashes end
them. -/
def readFlags (letters valued : List Char) : Nat → List Text → Except Text Flags
  | 0, args => .ok ([], args)
  | n + 1, args =>
    match args with
    | ['-', '-'] :: rest => .ok ([], rest)
    | ('-' :: c :: cs) :: rest => do
      let (flags, rest) ← readFlagRow letters valued (c :: cs) rest
      let (more, rest) ← readFlags letters valued n rest
      .ok (flags ++ more, rest)
    | args => .ok ([], args)

namespace ShellState

/-- What is done with the letters of arguments. -/
def withFlags (s : ShellState) (letters valued : List Char) (args : List Text)
    (next : List (Char × Text) → List Text → ShellState) : ShellState :=
  match readFlags letters valued (args.length + 1) args with
  | .ok (flags, rest) => next flags rest
  | .error why => s.fail why

/-- The largest number that can be an argument. -/
def maxNumber : Nat := 0x7fffffff

/-- A text that should be a number. -/
def failNumber (s : ShellState) (t : Text) : ShellState := s.fail ("Illegal number: ".toList ++ t)

/-- What is done with the number that is an argument. -/
def withNumber (s : ShellState) (t : Text) (next : Nat → ShellState) : ShellState :=
  if Text.isDigits t && Text.value t ≤ maxNumber then next (Text.value t) else s.failNumber t

end ShellState

/-! ## Quoting -/

/-- The length of the apostrophes at the start of a text, and of the other characters behind
them. -/
def apostropheRuns (t : Text) : Text × Text := (t.takeWhile (· = '\''), t.dropWhile (· = '\''))

/-- A text between apostrophes. Apostrophes in it stand between double quotes. -/
def quoteRuns : Nat → Text → Text
  | 0, _ => []
  | n + 1, t =>
    let plain := t.takeWhile (· ≠ '\'')
    let (marks, rest) := apostropheRuns (t.drop plain.length)
    '\'' :: plain ++ ['\''] ++ (if marks.isEmpty then [] else '"' :: marks ++ ['"'])
      ++ (if rest.isEmpty then [] else quoteRuns n rest)

/-- The text as a word of a script that stands for it. -/
def quoteWord (t : Text) : Text := quoteRuns (t.length + 1) t

end Fanout
