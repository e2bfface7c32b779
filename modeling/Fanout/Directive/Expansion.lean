import Fanout.Directive.Lines
import Fanout.Directive.Nodes
import Fanout.Directive.Range

/-!
# Expanding terms

`expandTerm` turns one written term into the values it stands for: escaped delimiters and commas
are restored first, then at most one directive applies. A value is never read again, so nothing in
a file or a file name has a meaning for the template.
-/

namespace Fanout

/-- The values of one written term. -/
structure TermExpansion where
  values : List Text
  /-- The values are names of file system nodes. -/
  nodes : Bool := false
  /-- The group takes its external path over from the template. -/
  absorbed : Bool := false
  deriving DecidableEq, Repr

/-- The values that a written term stands for. -/
def expandTerm (t : FileTree) (delimiter : Char) (external : Option Text) (raw : Text) :
    Except Stop TermExpansion := do
  let term := Text.unescapeStructural delimiter raw
  match Directive.ofTerm term with
  | .range first last => .ok { values := ← expandRange first last }
  | .lines path => .ok { values := ← Stop.lift (readLines t path) }
  | .nodes kind pattern =>
    let found ← Stop.lift (expandNodes t kind pattern external)
    .ok { values := found.nodes, nodes := true, absorbed := found.absorbed }
  | .literal => .ok { values := [term] }

end Fanout
