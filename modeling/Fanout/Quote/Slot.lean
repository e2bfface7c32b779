import Fanout.Quote.Escape

/-!
# Terms inside quotes

A term is a plain value. In a command it stands in a slot, and the slot stands in quotes or not;
`quoteTerm` writes the value so that the shell hands it on unchanged as far as the slot's context
can. `unquoteBody` goes the other way for the body of a group, which is read from inside a quoted
word.

* single quotes: an apostrophe closes the word, stands escaped, and opens it again.
* no quotes: both quotes get a backslash; the name of a file also gets one before each space.
* double quotes: nothing changes.
-/

namespace Fanout

/-- Either quote. -/
def isQuote (c : Char) : Bool := c = '\'' || c = '"'

/-- An apostrophe written inside single quotes: out of the word, escaped, and in again. -/
def apostropheInSingle : Text := ['\'', '\\', '\'', '\'']

/-- A value as it is written between the quotes of a context. -/
def escapeTerm : QuoteContext → Text → Text
  | .plain, t => t.flatMap fun c => if isQuote c then ['\\', c] else [c]
  | .single, t => t.flatMap fun c => if c = '\'' then apostropheInSingle else [c]
  | .double, t => t

/-- A backslash in front of each space. -/
def escapeSpaces (t : Text) : Text := t.flatMap fun c => if c = ' ' then ['\\', ' '] else [c]

/-- A value as it is written in a slot. The name of a file system node also keeps its spaces
together when no quotes do. -/
def quoteTerm (context : QuoteContext) (node : Bool) (t : Text) : Text :=
  if node && context = .plain then escapeTerm .plain (escapeSpaces t) else escapeTerm context t

/-- Apostrophes that were written inside single quotes, read back from the left. -/
def readApostrophes : Text → Text
  | '\'' :: '\\' :: '\'' :: '\'' :: t => '\'' :: readApostrophes t
  | c :: t => c :: readApostrophes t
  | [] => []

/-- The body of a group without the quoting of the word around it. -/
def unquoteBody : QuoteContext → Text → Text
  | .plain, t => t.unescape isQuote
  | .single, t => readApostrophes t
  | .double, t => t

end Fanout
