import Fanout.Quote.Scanner
import Fanout.Text.Offset

/-!
# Escaped characters

A character is escaped when an odd run of backslashes stands in front of it.

* `isEscaped`: the rule, by byte offset.
* `splitUnescaped`: the pieces between unescaped separators; escapes stay in the pieces.
* `unescape p`: backslashes in front of the characters with `p` disappear. Backslashes are read in
  pairs from the left, so an escaped backslash never escapes what follows it.
* `unescapeStructural d`: `unescape` for the two characters that shape a template, the group
  delimiter `d` and the comma.
-/

namespace Fanout

namespace Text

/-- How many backslashes the text ends with. -/
def trailingBackslashes (t : Text) : Nat := (t.reverse.takeWhile (· = '\\')).length

/-- The character at byte offset `n` is escaped. Offsets inside a character and past the end are
not. -/
def isEscaped (t : Text) (n : Nat) : Bool :=
  match before? n t with
  | some opening => trailingBackslashes opening % 2 = 1
  | none => false

/-- The pieces between unescaped separators, read on from a scanner. -/
def splitFrom (sep : Char) : Scanner → Text → List Text
  | _, [] => [[]]
  | s, c :: t =>
    let pieces := splitFrom sep (s.next c false) t
    if c = sep && !s.escapes c false then [] :: pieces else pieces.modifyHead (c :: ·)

/-- The pieces between unescaped separators. Escapes are kept as written. -/
def splitUnescaped (sep : Char) (t : Text) : List Text := splitFrom sep .start t

/-- Each backslash that escapes a character with `p` is dropped. -/
def unescape (p : Char → Bool) : Text → Text
  | '\\' :: c :: t => if p c then c :: unescape p t else '\\' :: c :: unescape p t
  | c :: t => c :: unescape p t
  | [] => []

/-- The characters that shape a template with delimiter `d`: `d` itself and the comma. -/
def isStructural (d c : Char) : Bool := c = d || c = ','

/-- Escaped delimiters and commas become the characters they stand for. -/
def unescapeStructural (d : Char) (t : Text) : Text := unescape (isStructural d) t

end Text

end Fanout
