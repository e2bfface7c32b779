import Fanout.Text.Basic

/-!
# White space

The characters with the Unicode property White_Space, and the texts left when they are taken off
either end.

* `trim` takes blanks off both ends; nothing between the ends is touched.
-/

namespace Fanout

namespace Text

/-- The characters with the Unicode property White_Space. -/
def blanks : List Char :=
  ['\t', '\n', '\x0b', '\x0c', '\r', ' ', '\u0085', '\u00a0', '\u1680', '\u2000', '\u2001',
   '\u2002', '\u2003', '\u2004', '\u2005', '\u2006', '\u2007', '\u2008', '\u2009', '\u200a',
   '\u2028', '\u2029', '\u202f', '\u205f', '\u3000']

/-- White space, by the Unicode property White_Space. -/
def isBlank (c : Char) : Bool := blanks.contains c

/-- The text without the blanks it begins with. -/
def trimStart (t : Text) : Text := t.dropWhile isBlank

/-- The text without the blanks it ends with. -/
def trimEnd (t : Text) : Text := (t.reverse.dropWhile isBlank).reverse

/-- The text without the blanks at either end. -/
def trim (t : Text) : Text := trimEnd (trimStart t)

end Text

end Fanout
