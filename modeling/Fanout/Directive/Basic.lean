import Fanout.Fault.Basic

/-!
# Directives

A term of a group is a directive when it is written as one: a range of numbers, a file of lines,
or a search for file system nodes. Every other term is a literal.

* `readRange?`: the bounds of a range.
* `Directive.ofTerm`: what a term asks for.
-/

namespace Fanout

/-- What a term asks for. -/
inductive Directive where
  /-- The numbers from one bound to the other. -/
  | range (first last : Text)
  /-- The lines of a file. -/
  | lines (path : Text)
  /-- The nodes a pattern describes. -/
  | nodes (kind : NodeKind) (pattern : Text)
  /-- The term itself. -/
  | literal
  deriving DecidableEq, Repr

/-- The text on either side of the first two dots in a row. -/
def splitDots? : Text → Option (Text × Text)
  | '.' :: '.' :: t => some ([], t)
  | c :: t => (splitDots? t).map fun (before, behind) => (c :: before, behind)
  | [] => none

/-- The bounds of a range, both rows of digits. -/
def readRange? (term : Text) : Option (Text × Text) :=
  match splitDots? term with
  | some (first, last) =>
    if Text.isDigits first && Text.isDigits last then some (first, last) else none
  | none => none

namespace NodeKind

/-- The pattern of a search for nodes of the kind. -/
def patternIn? (k : NodeKind) (term : Text) : Option Text := Text.after? (k.name ++ [':']) term

/-- The search a term asks for. -/
def split? (term : Text) : Option (NodeKind × Text) :=
  [NodeKind.files, .dirs, .all].findSome? fun k => (k.patternIn? term).map (k, ·)

end NodeKind

namespace Directive

/-- What a term asks for. -/
def ofTerm (term : Text) : Directive :=
  match readRange? term with
  | some (first, last) => .range first last
  | none =>
    match Text.after? "lines:".toList term with
    | some path => .lines path
    | none =>
      match NodeKind.split? term with
      | some (kind, pattern) => .nodes kind pattern
      | none => .literal

end Directive

end Fanout
