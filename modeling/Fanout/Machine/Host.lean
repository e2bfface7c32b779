import Fanout.Batch.Run
import Fanout.Machine.Program.Cat
import Fanout.Machine.Program.Count
import Fanout.Machine.Program.Select
import Fanout.Machine.Program.Replace
import Fanout.Machine.Script.Start

/-!
# Machines

A machine keeps a file tree, starts the programs that stand in it, and gathers what they write. It
is a host for batches that works in memory, without a real system.

* `Machine.bare`: a machine with its programs and an empty working directory.
* `Machine.host`: the machine as a host.
-/

namespace Fanout

/-- A machine in memory. -/
structure Machine where
  tree : FileTree
  /-- What programs wrote to standard output. -/
  output : ByteArray := .empty
  /-- What programs wrote to standard error. -/
  errors : ByteArray := .empty

namespace Machine

/-! ## Programs -/

/-- The programs that need no shell. -/
def programs : List (String × (Program.Speaker → Program)) :=
  [("true", fun _ _ p => (p, .exited 0)), ("false", fun _ _ p => (p, .exited 1)),
   ("echo", Program.echo), ("printf", Program.format), ("cat", Program.cat),
   ("test", Program.condition), ("[", Program.bracketed), ("wc", Program.count),
   ("tr", Program.replace), ("grep", Program.select)]

/-- The directory of the programs. -/
def programDir : Location := ["usr".toList, "bin".toList]

/-- The name of the shell. -/
def shellName : String := "sh"

/-- What a name leads to: a path, or else a name in the directory of the programs. -/
def find (t : FileTree) (name : Text) : Except IoFault Text :=
  if name.contains '/' then .ok name
  else if name.isEmpty then .error (.system .notFound)
  else do
    let path := "/usr/bin/".toList ++ name
    let _ ← t.walk true FileTree.maxLinks programDir [name]
    .ok path

/-- No argument of a program has this many bytes. -/
def maxArgument : Nat := 131072

/-- The bytes that all arguments of a program can take, each with an end mark and an address. -/
def maxArguments : Nat := 2097152

/-- The words are too long for the arguments of a program. -/
def overflows (words : List Text) : Bool :=
  words.any (maxArgument ≤ Text.byteLength ·)
    || maxArguments < (words.map fun w => Text.byteLength w + 9).foldl (· + ·) 0

/-- The deepest nesting of shells. -/
def maxShells : Nat := 64

/-- The deepest nesting of scripts in a shell. -/
def maxDepth : Nat := 4096

/-- Starts the program at a path with words, the first of which is the name it is called by. Shells
can start shells, at most `depth` deep. -/
def launch : Nat → Text → List Text → Process → Process × Except StartFailure ExitStatus
  | 0, path, _, p => (p, .error (.system path .tooManyProcesses))
  | depth + 1, path, words, p =>
    let name := words.headD []
    match p.tree.node? path with
    | .error (.system e) => (p, .error (.ofSystem p.tree.isDir name e))
    | .error _ => (p, .error (.nulInWord name))
    | .ok (.program file) =>
      let file := String.ofList file
      let run (program : Program.Speaker → Program) : Process × Except StartFailure ExitStatus :=
        let (p, status) := program (.ofName name) words.tail p
        (p, .ok status)
      if overflows words then (p, .error (.system name .argumentsTooLong))
      else if file = shellName then
        let (p, status) := startShell (hostAt (launch depth) maxDepth) words p
        (p, .ok status)
      else match programs.lookup file with
        | some program => run program
        | none => (p, .error (.notFound name))
    | .ok _ => (p, .error (.ofSystem p.tree.isDir name .denied))

/-! ## The machine as a host -/

/-- The variables that programs are started with. -/
def environment : List (Text × Text) :=
  [("HOME".toList, "/root".toList), ("PATH".toList, ShellState.usualPath)]

/-- A machine whose programs read an empty standard input. -/
def start (m : Machine) (words : List Text) : Machine × Except StartFailure ExitStatus :=
  let fresh := Process.onTree m.tree environment
  let name := words.headD []
  let started : Process × Except StartFailure ExitStatus := match words with
    | [] => (fresh, .error .emptyCommand)
    | _ =>
      if words.any (·.contains '\x00') then (fresh, .error (.nulInWord name))
      else match find m.tree name with
        | .error (.system e) => (fresh, .error (.ofSystem m.tree.isDir name e))
        | .error _ => (fresh, .error (.nulInWord name))
        | .ok path => launch maxShells path words fresh
  let p := started.1
  let tree := { p.tree with workingDir := m.tree.workingDir }
  (⟨tree, m.output ++ p.onChannel .output, m.errors ++ p.onChannel .errors⟩, started.2)

/-- The machine as a host for batches. -/
def host : Host Machine := ⟨start⟩

/-- The path of the directory that a machine works in. -/
def workingDir : Location := ["work".toList]

/-- The devices, by path. -/
def devices : List (String × Entry) :=
  [("/dev/null", .sink), ("/dev/full", .full), ("/dev/tty", .terminal),
   ("/dev/stdin", .channel 0), ("/dev/stdout", .channel 1), ("/dev/stderr", .channel 2)]

/-- A file tree with programs, devices, and an empty working directory. The path
`/proc/self/cwd` always leads to that directory. -/
def bareTree : FileTree :=
  let empty : FileTree := { FileTree.empty with workingDir }
  let dirs := ["/work", "/root", "/etc", "/usr/bin", "/dev/fd", "/tmp", "/proc/1"]
  let tree := dirs.foldl (fun t d => t.place d.toList .dir) empty
  let tree := devices.foldl (fun t (path, e) => t.place path.toList e) tree
  let tree := (List.range 10).foldl
    (fun t n => t.place ("/dev/fd/".toList ++ Text.numeral n) (.channel n)) tree
  let tree := tree.place "/bin".toList (.link "usr/bin".toList)
  let tree := (tree.place "/proc/self".toList (.link "1".toList)).place "/proc/1/cwd".toList
    (.link "/work".toList)
  (shellName :: programs.map Prod.fst).foldl
    (fun t n => t.put (programDir ++ [n.toList]) (.program n.toList)) tree

/-- A machine with its programs and an empty working directory. -/
def bare : Machine := { tree := bareTree }

end Machine

end Fanout
