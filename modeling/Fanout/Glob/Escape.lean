import Fanout.Glob.Pattern
import Fanout.Quote.Escape

/-!
# Wildcards in directives and paths

The written form of a directive has five characters that count as wildcards. A backslash in front
of one of them makes it stand for itself.

* `hasWildcards`: the text holds an unescaped one.
* `dropWildcardEscapes`: every backslash right in front of one disappears.
* `patternOf`: the pattern for a text in which escaped wildcards and brackets are meant literally.
  Any other backslash stays, as a character.
-/

namespace Fanout

namespace Glob

/-- The characters that count as wildcards. -/
def wildcards : List Char := ['*', '?', '!', '\x7b', '\x7d']

/-- The character counts as a wildcard. -/
def isWildcard (c : Char) : Bool := wildcards.contains c

/-- The text holds an unescaped wildcard, read on from a scanner. -/
def hasWildcardsFrom : Scanner → Text → Bool
  | _, [] => false
  | s, c :: t => (!s.escapes c false && isWildcard c) || hasWildcardsFrom (s.next c false) t

/-- The text holds an unescaped wildcard. -/
def hasWildcards (t : Text) : Bool := hasWildcardsFrom .start t

/-- The text without the backslashes that stand right in front of a wildcard. -/
def dropWildcardEscapes : Text → Text
  | '\\' :: c :: t =>
    if isWildcard c then c :: dropWildcardEscapes t else '\\' :: dropWildcardEscapes (c :: t)
  | c :: t => c :: dropWildcardEscapes t
  | [] => []

/-- The character has a meaning in directives or in patterns. -/
def isMeant (c : Char) : Bool := isWildcard c || c = '[' || c = ']'

/-- The pattern for a written text. -/
def patternOf : Text → Text
  | '\\' :: c :: t => (if isMeant c then escapeChar c else ['\\', c]) ++ patternOf t
  | c :: t => c :: patternOf t
  | [] => []

end Glob

end Fanout
