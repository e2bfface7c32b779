import Fanout.FileTree.Basic
import Fanout.Glob.Pattern

/-!
# Walking a file tree by a pattern

A pattern is taken apart at its slashes, and its components are matched against names one
directory level at a time. A component without wildcards is looked up directly, so it can also be a
dot or two; a wildcard never matches these unless the pattern itself begins with a dot. Names that
begin with a dot are matched like any others.

Paths are found as the pattern spells them: a leading dot component leaves no trace, an empty one
leaves a slash. Directories are read in the order of their names, and a directory comes before
what it holds.

* `Spot`: a path under consideration.
* `agenda`: what the first component of a row of patterns leads to from a directory.
* `visit`: the findings from one item of an agenda.
* `search`: the findings for a pattern, or where the pattern goes wrong.
-/

namespace Fanout

namespace Glob

/-- What a search comes across. -/
inductive Finding where
  /-- A path that the pattern describes. -/
  | hit (path : Text)
  /-- A directory that could not be listed. -/
  | unreadable (path : Text)
  deriving DecidableEq, Repr

/-- The path that was found. -/
def Finding.path? : Finding → Option Text
  | .hit path => some path
  | .unreadable _ => none

/-- A path under consideration, and whether it leads to a directory. -/
structure Spot where
  path : Text
  isDir : Bool
  deriving DecidableEq, Repr

/-- The path with what the tree says about it. -/
def Spot.at (t : FileTree) (p : Text) : Spot := ⟨p, t.isDir p⟩

/-- The path of an entry, as a search spells it: nothing is put in front in the current
directory. -/
def Spot.entryPath (s : Spot) (name : Text) : Text :=
  if Path.isCurrent s.path then name else Path.child s.path name

/-- Something a search still has to look at. -/
inductive Item where
  /-- A path that is known to match all components. -/
  | settled (spot : Spot)
  /-- A path whose last name is to be matched by the first pattern. -/
  | pending (spot : Spot) (patterns : List Pattern)
  | unreadable (path : Text)
  deriving DecidableEq, Repr

/-- The component is a lone dot or two. -/
def isDots (name : Text) : Bool := name = ['.'] || name = ['.', '.']

/-- What the first of the patterns leads to from a spot. Names to look up lead straight on to the
next pattern; with wildcards, every entry of the directory is to be matched. -/
def agenda (t : FileTree) : List Pattern → Spot → List Item
  | [], _ => []
  | p :: ps, s =>
    let reach (next : Spot) : List Item :=
      if ps.isEmpty then [.settled next] else agenda t ps next
    match p.literal? with
    | some name =>
      let next := Spot.at t (s.entryPath name)
      if isDots name then if s.isDir then reach next else []
      else if t.hasNode next.path then reach next else []
    | none =>
      if !s.isDir then []
      else match t.list s.path with
        | .error _ => [.unreadable s.path]
        | .ok names =>
          let dots := [['.', '.'], ['.']].filter fun d => p.beginsWithDot && p.matches d
          let entry (n : Text) : Item :=
            .pending ⟨s.entryPath n, t.entryIsDir (s.entryPath n)⟩ (p :: ps)
          dots.flatMap (fun d => reach (Spot.at t (Path.child s.path d)))
            ++ (names.mergeSort Path.textLe).map entry

/-- How deep a search goes: a path has fewer names than bytes. -/
def maxDepth : Nat := FileTree.maxPath

/-- The findings from one item. With `dirsOnly`, a path counts only when it leads to a directory. -/
def visit (t : FileTree) (dirsOnly : Bool) : Nat → Item → List Finding
  | 0, _ => []
  | depth + 1, item =>
    let below (patterns : List Pattern) (s : Spot) : List Finding :=
      (agenda t patterns s).flatMap (visit t dirsOnly depth)
    let byName (patterns : List Pattern) (s : Spot) : List Finding :=
      match patterns, Path.fileName? s.path with
      | p :: ps, some name =>
        if !p.matches name then []
        else if !ps.isEmpty then below ps s
        else if dirsOnly && !s.isDir then [] else [.hit s.path]
      | _, _ => []
    match item with
    | .unreadable p => [.unreadable p]
    | .settled s => if dirsOnly && !s.isDir then [] else [.hit s.path]
    | .pending _ [] => []
    | .pending s (p :: ps) =>
      if !p.isRecursive then byName (p :: ps) s
      else
        let rest := ps.dropWhile Pattern.isRecursive
        if rest.isEmpty then if s.isDir then .hit s.path :: below [p] s else []
        else byName rest s ++ (if s.isDir then below (p :: rest) s else [])

/-- The components of a pattern behind its root slash. One slash at the end counts for nothing;
the root by itself has one empty component. -/
def componentTexts (pattern : Text) : List Text :=
  let rest := if Path.isAbsolute pattern then pattern.tail else pattern
  if rest.isEmpty then [[]]
  else
    let ps := Path.pieces rest
    if ps.getLast? = some [] then ps.dropLast else ps

/-- Where a pattern starts from: the root, or the current directory. -/
def origin (pattern : Text) : Text := if Path.isAbsolute pattern then ['/'] else ['.']

/-- Every path that the pattern describes. The whole pattern has to be well formed, and then each
of its components by itself. -/
def search (t : FileTree) (pattern : Text) : Except PatternFault (List Finding) := do
  let _ ← Pattern.ofText pattern
  let patterns ← (componentTexts pattern).mapM Pattern.ofText
  let dirsOnly := pattern.getLast? = some '/'
  .ok ((agenda t patterns (Spot.at t (origin pattern))).flatMap (visit t dirsOnly maxDepth))

end Glob

end Fanout
