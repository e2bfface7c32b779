import Fanout.FileTree.Basic

/-!
# Laying out file trees

Nodes are put at paths. Directories on the way are made as they are missing, and links on the way
are followed.

* `put`: what stands at a location from now on.
* `replace`: the same without a trace of what stood there before; nothing else moves
  (`nodeAt?_replace`).
* `spot`: where a file would be made.
-/

namespace Fanout

namespace FileTree

/-- The entry stands at the location from now on. -/
def put (t : FileTree) (l : Location) (e : Entry) : FileTree :=
  { t with entries := (l, e) :: t.entries }

/-- The tree with a directory at the end of the pieces, and the location of that directory. -/
def makeDirs (t : FileTree) (here : Location) : List Text → FileTree × Location
  | [] => (t, here)
  | p :: rest =>
    if Path.isVoid p then makeDirs t here rest
    else if p = ['.', '.'] then makeDirs t here.dropLast rest
    else match t.nodeAt? (here ++ [p]) with
      | none => makeDirs (t.put (here ++ [p]) .dir) (here ++ [p]) rest
      | some (.link _) =>
        match t.walk true maxLinks here [p] with
        | .ok l => makeDirs t l rest
        | .error _ => makeDirs t (here ++ [p]) rest
      | some _ => makeDirs t (here ++ [p]) rest

/-- The tree with an entry at a path. -/
def place (t : FileTree) (p : Text) (e : Entry) : FileTree :=
  let start := if Path.isAbsolute p then [] else t.workingDir
  match e with
  | .dir => (t.makeDirs start (Path.pieces p)).1
  | e =>
    let ps := (Path.pieces p).filter (!Path.isVoid ·)
    let (t, parent) := t.makeDirs start ps.dropLast
    match ps.getLast? with
    | some n => t.put (parent ++ [n]) e
    | none => t

/-- The location where a file at a path stands or could be made: all that is above it has to be
there. A link that leads nowhere leads to where the file would be made. -/
def spotFrom (t : FileTree) : Nat → Location → List Text → Except IoFault Location
  | 0, _, _ => .error (.system .tooManyLinks)
  | n + 1, here, ps =>
    match t.walk true maxLinks here ps with
    | .ok l => .ok l
    | .error (.system .notFound) =>
      match ps.getLast? with
      | none => .error (.system .notFound)
      | some name => do
        let parent ← t.walk true maxLinks here ps.dropLast
        if Path.isVoid name then .error (.system .isADirectory)
        else if name = ['.', '.'] || !t.isDirAt parent then .error (.system .notFound)
        else match t.nodeAt? (parent ++ [name]) with
          | some (.link target) =>
            t.spotFrom n (if Path.isAbsolute target then [] else parent) (Path.pieces target)
          | _ => .ok (parent ++ [name])
    | .error f => .error f

/-- The location where a file at a path stands or could be made. -/
def spot (t : FileTree) (p : Text) : Except IoFault Location :=
  if p.contains '\x00' then .error .nulInPath
  else if p.isEmpty then .error (.system .notFound)
  else if maxPath ≤ Text.byteLength p then .error (.system .nameTooLong)
  else t.spotFrom maxLinks (if Path.isAbsolute p then [] else t.workingDir) (Path.pieces p)

/-- The entries with a new one in the place of that for its location, or in front of all when there
is none. -/
def replaceIn (l : Location) (e : Entry) : List (Location × Entry) → List (Location × Entry)
  | [] => [(l, e)]
  | (m, old) :: rest => if l = m then (l, e) :: rest else (m, old) :: replaceIn l e rest

/-- The entry stands at the location from now on, in the place of the one before. -/
def replace (t : FileTree) (l : Location) (e : Entry) : FileTree :=
  { t with entries := replaceIn l e t.entries }

theorem lookup_replaceIn (l m : Location) (e : Entry) (es : List (Location × Entry)) :
    (replaceIn l e es).lookup m = if m = l then some e else es.lookup m := by
  have ne {x y : Location} (h : x ≠ y) : (x == y) = false := by simpa using h
  induction es with
  | nil =>
    by_cases h : m = l
    · simp [replaceIn, h]
    · simp [replaceIn, List.lookup_cons, h, ne h]
  | cons x es ih =>
    obtain ⟨k, old⟩ := x
    by_cases hk : l = k
    · subst hk
      by_cases h : m = l
      · simp [replaceIn, h]
      · simp [replaceIn, List.lookup_cons, h, ne h]
    · by_cases hm : m = k
      · subst hm
        simp [replaceIn, hk, Ne.symm hk]
      · simp [replaceIn, List.lookup_cons, hk, ne hm, ih]

theorem nodeAt?_replace {t : FileTree} {l m : Location} {e : Entry} (h : m ≠ []) :
    (t.replace l e).nodeAt? m = if m = l then some e else t.nodeAt? m := by
  cases m with
  | nil => exact absurd rfl h
  | cons n m => simp [nodeAt?, replace, lookup_replaceIn]

end FileTree

end Fanout
