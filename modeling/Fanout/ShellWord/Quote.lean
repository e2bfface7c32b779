import Fanout.Text.Basic

/-!
# Quoting words for a shell

A word is quoted with as little as possible: bare when no character in it is special, and
otherwise between single quotes with each apostrophe written outside them.

* `join`: words on one line, a space between neighbours.
-/

namespace Fanout

namespace ShellWord

/-- The characters that need quotes around their word. -/
def specials : List Char :=
  ['\n', '\'', '|', '&', ';', '<', '>', '(', ')', '$', '\x60', '\\', '"', ' ', '\t', '*', '?',
   '[', '#', '~', '=', '%']

/-- The character needs quotes around its word. -/
def isSpecial (c : Char) : Bool := specials.contains c

/-- The word can stand without quotes. -/
def isBare (w : Text) : Bool := !w.isEmpty && !w.any isSpecial

/-- The inside of a single-quoted word: each apostrophe leaves the quotes, stands escaped, and
enters them again. -/
def quotedBody (w : Text) : Text :=
  w.flatMap fun c => if c = '\'' then ['\'', '\\', '\'', '\''] else [c]

/-- The word as a shell reads it back. -/
def quote (w : Text) : Text := if isBare w then w else '\'' :: quotedBody w ++ ['\'']

/-- The words on one line, quoted, with a space between neighbours. -/
def join (ws : List Text) : Text := Text.join [' '] (ws.map quote)

end ShellWord

end Fanout
