import Fanout.Directive.Basic
import Fanout.Glob.Escape
import Fanout.Glob.Walk
import Fanout.Path.Relative

/-!
# Searches for file system nodes

A search finds the nodes of one kind that a pattern describes, in the order of their paths. The
text in front of the group may be a path, the external path, and decides how a node is shown:

* no external path, absolute pattern: the name of the node;
* no external path, relative pattern: the path as it was matched;
* an external path without wildcards: the path relative to it, and the group absorbs the external
  path;
* an external path with wildcards: the path as it was matched, and the text in front stays.

An absolute pattern behind an external path is refused.

* `searchPattern`: the pattern that is searched for.
* `matchesOf`: the nodes found, before they are shown.
* `expandNodes`: the nodes as terms.
-/

namespace Fanout

namespace NodeKind

/-- Nodes of the type are of the wanted kind. -/
def accepts : NodeKind → NodeType → Bool
  | .files, k => k = .file
  | .dirs, k => k = .dir
  | .all, k => k = .file || k = .dir

end NodeKind

/-- What a search gives: the nodes as terms, and whether the group absorbs its external path. -/
structure NodeExpansion where
  nodes : List Text
  absorbed : Bool
  deriving DecidableEq, Repr

/-- The external path keeps its wildcards, so matches are shown whole. -/
def isTainted (external : Option Text) : Bool := external.any Glob.hasWildcards

/-- The pattern behind the external path, with one slash in between. An escaped slash at the end of
the path does not count. -/
def joinExternal (external pattern : Text) : Text :=
  if external.getLast? = some '/' && !Text.isEscaped external (Text.byteLength external - 1) then
    external ++ pattern
  else external ++ '/' :: pattern

/-- The pattern that is searched for. An external path without wildcards is meant literally. -/
def searchPattern (external : Option Text) (pattern : Text) : Text :=
  match external with
  | none => Glob.patternOf pattern
  | some ext =>
    if Glob.hasWildcards ext then Glob.patternOf (joinExternal ext pattern)
    else joinExternal (Glob.Pattern.escape (Glob.dropWildcardEscapes ext)) (Glob.patternOf pattern)

/-- The found paths of the wanted kind. The first finding without a type is a fault. -/
def selectNodes (t : FileTree) (kind : NodeKind) : List Glob.Finding → Except Fault (List Text)
  | [] => .ok []
  | .unreadable p :: _ => .error (.unreadableDirectory p)
  | .hit p :: rest =>
    match t.metadata p with
    | .error f => .error (.unknownNode p f)
    | .ok k => do
      let more ← selectNodes t kind rest
      .ok (if kind.accepts k then p :: more else more)

/-- The nodes of the kind that a search finds, in the order of their paths. -/
def matchesOf (t : FileTree) (kind : NodeKind) (pattern : Text) (external : Option Text) :
    Except Fault (List Text) := do
  let text := searchPattern external pattern
  match Glob.search t text with
  | .error f => .error (.malformedPattern text f)
  | .ok findings =>
    let found ← selectNodes t kind findings
    if found.isEmpty then .error (.noMatches kind pattern external)
    else .ok (found.mergeSort Path.le)

/-- A found path as it is shown. -/
def showNode (absolute : Bool) (external : Option Text) (p : Text) : Except Fault Text :=
  match external with
  | none => .ok (if absolute then (Path.fileName? p).getD p else p)
  | some ext =>
    if Glob.hasWildcards ext then .ok p
    else
      let base := Glob.dropWildcardEscapes ext
      match Path.relative? base p with
      | some r => .ok r
      | none => .error (.outside p base)

/-- The terms that a search stands for. -/
def expandNodes (t : FileTree) (kind : NodeKind) (pattern : Text) (external : Option Text) :
    Except Fault NodeExpansion := do
  let absolute := Path.isAbsolute pattern
  if absolute && external.isSome then .error (.mixedPaths kind pattern)
  else
    let found ← matchesOf t kind pattern external
    let nodes ← found.mapM (showNode absolute external)
    .ok ⟨nodes, external.isSome && !isTainted external⟩

end Fanout
