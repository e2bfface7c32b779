import Fanout.Fault.System
import Fanout.Path.Component
import Fanout.Text.Record

/-!
# File trees

A file tree is the state of a file system: what stands at each location, which of it may not be
read, and which directory is the working directory. A location is the row of names that lead there
from the root; the root itself is always a directory.

* `resolve`: the location a path leads to, by the rules of the system: every step but the last has
  to be a directory, symbolic links are followed, at most forty of them on the way.
* `metadata`, `list`, `open?`: what the system tells about a path. What a node is can always be
  asked; a directory without permission cannot be listed, nor such a file opened.
-/

namespace Fanout

/-- The row of names from the root to a node. -/
abbrev Location := List Text

/-- What stands at a location. -/
inductive Entry where
  | file (content : ByteArray)
  | dir
  /-- A symbolic link to a path, which may lead nowhere. -/
  | link (target : Text)
  /-- A file that the system can run, by the name of the program in it. -/
  | program (name : Text)
  /-- The device that takes everything and holds nothing. -/
  | sink
  /-- The device that has no room for anything. -/
  | full
  /-- The device that leads to a channel, by its number, of the process that opens it. -/
  | channel (n : Nat)
  /-- The device of the terminal of a process. No process has one. -/
  | terminal
  deriving DecidableEq

/-- What a node is, as far as directives tell nodes apart. -/
inductive NodeType where
  | file
  | dir
  | other
  deriving DecidableEq, Repr

/-- The type of a node that is not a link. -/
def Entry.nodeType : Entry → NodeType
  | .file _ | .program _ => .file
  | .dir => .dir
  | .link _ | .sink | .full | .channel _ | .terminal => .other

/-- The state of a file system. -/
structure FileTree where
  /-- What stands where. The first entry for a location counts. -/
  entries : List (Location × Entry)
  workingDir : Location
  /-- The nodes that may not be read. -/
  closed : List Location := []
  deriving DecidableEq

namespace FileTree

/-- The tree with nothing in it but the root. -/
def empty : FileTree := { entries := [], workingDir := [] }

/-- What stands at a location. -/
def nodeAt? (t : FileTree) (l : Location) : Option Entry :=
  if l.isEmpty then some .dir else t.entries.lookup l

/-- The location is a directory. -/
def isDirAt (t : FileTree) (l : Location) : Bool := t.nodeAt? l = some .dir

/-- The names in the directory at a location. -/
def namesAt (t : FileTree) (l : Location) : List Text :=
  (t.entries.filterMap fun (m, _) => if m.dropLast = l then m.getLast? else none).eraseDups

/-! ## Resolution -/

/-- The largest number of links on the way of a path. -/
def maxLinks : Nat := 40

/-- The largest number of bytes in a name. -/
def maxName : Nat := 255

/-- No path has this many bytes. -/
def maxPath : Nat := 4096

/-- The location that the pieces of a path lead to from `here`, with at most `links` links on the
way. A link at the very end is followed only when asked for. -/
def walk (t : FileTree) (followLast : Bool) (links : Nat) (here : Location) :
    List Text → Except IoFault Location
  | [] => .ok here
  | p :: rest =>
    if !t.isDirAt here then .error (.system .notADirectory)
    else if Path.isVoid p then walk t followLast links here rest
    else if p = ['.', '.'] then walk t followLast links here.dropLast rest
    else if maxName < Text.byteLength p then .error (.system .nameTooLong)
    else match t.nodeAt? (here ++ [p]) with
      | none => .error (.system .notFound)
      | some (.link target) =>
        if rest.isEmpty && !followLast then .ok (here ++ [p])
        else match links with
          | 0 => .error (.system .tooManyLinks)
          | n + 1 =>
            if target.isEmpty then .error (.system .notFound)
            else walk t followLast n (if Path.isAbsolute target then [] else here)
              (Path.pieces target ++ rest)
      | some _ => walk t followLast links (here ++ [p]) rest
termination_by ps => (links, ps.length)

/-- The location a path leads to. -/
def resolve (t : FileTree) (p : Text) (followLast : Bool) : Except IoFault Location :=
  if p.contains '\x00' then .error .nulInPath
  else if p.isEmpty then .error (.system .notFound)
  else if maxPath ≤ Text.byteLength p then .error (.system .nameTooLong)
  else walk t followLast maxLinks (if Path.isAbsolute p then [] else t.workingDir) (Path.pieces p)

/-- What a path leads to, links followed. -/
def node? (t : FileTree) (p : Text) : Except IoFault Entry := do
  match t.nodeAt? (← t.resolve p true) with
  | some e => .ok e
  | none => .error (.system .notFound)

/-- What a path leads to, opened to be read. -/
def open? (t : FileTree) (p : Text) : Except IoFault Entry := do
  if t.closed.contains (← t.resolve p true) then .error (.system .denied) else t.node? p

/-- The type of the node a path leads to, links followed. -/
def metadata (t : FileTree) (p : Text) : Except IoFault NodeType :=
  (t.node? p).map Entry.nodeType

/-- The path leads to a directory. -/
def isDir (t : FileTree) (p : Text) : Bool :=
  match t.metadata p with
  | .ok k => k = .dir
  | .error _ => false

/-- Something stands at the path, be it a link that leads nowhere. -/
def hasNode (t : FileTree) (p : Text) : Bool :=
  match t.resolve p false with
  | .ok _ => true
  | .error _ => false

/-- The names in the directory a path leads to. -/
def list (t : FileTree) (p : Text) : Except IoFault (List Text) := do
  let l ← t.resolve p true
  if !t.isDirAt l then .error (.system .notADirectory)
  else if t.closed.contains l then .error (.system .denied)
  else .ok (t.namesAt l)

/-- What the entry of a directory is by itself, and a directory through a link. -/
def entryIsDir (t : FileTree) (p : Text) : Bool :=
  match t.resolve p false with
  | .ok l =>
    match t.nodeAt? l with
    | some (.link _) => t.isDir p
    | some e => e.nodeType = .dir
    | none => false
  | .error _ => false

end FileTree

/-- The bytes of an open node. A directory opens, but has none to read. -/
def Entry.bytes : Entry → Except IoFault ByteArray
  | .file content => .ok content
  | .dir => .error (.system .isADirectory)
  | .terminal => .error (.system .noDevice)
  | .link _ | .program _ | .sink | .full | .channel _ => .ok .empty

end Fanout
