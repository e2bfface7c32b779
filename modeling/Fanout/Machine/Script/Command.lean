import Fanout.Machine.Program.Condition
import Fanout.Machine.Program.Echo
import Fanout.Machine.Program.Format
import Fanout.Machine.Script.Builtin.Control
import Fanout.Machine.Script.Builtin.Directory
import Fanout.Machine.Script.Builtin.Traps
import Fanout.Machine.Script.Builtin.Variables

/-!
# Running commands

A command whose arguments are known is a function, a command of the shell, or a program.

* `builtins`: the commands of the shell.
* `ShellState.call`: runs a command.
-/

namespace Fanout

namespace ShellState

/-! ## Programs -/

/-- The signals that the programs of a shell do not heed. -/
def ignoredSignals (s : ShellState) : List Nat :=
  s.process.ignored ++ (s.traps.filter (·.2.isEmpty)).map Prod.fst

/-- The process in which a program of the shell runs. -/
def forProgram (s : ShellState) (p : Process) : Process :=
  { p with environment := s.environment, ignored := s.ignoredSignals }

/-- Why there is no program of a name in the directories for programs. -/
def missing (s : ShellState) (usual : Bool) (name : Text) : SystemError :=
  (s.pathsOf usual name).foldl (fun why path =>
    match s.process.tree.metadata path with
    | .ok _ => .denied
    | .error (.system e) => if e = .notFound || e = .notADirectory then why else e
    | .error _ => why) .notFound

/-- What the shell says about a program that did not start, and the status of that. -/
def startFault (name : Text) : StartFailure → Text × Nat
  | .notFound _ | .system _ .notADirectory => (name ++ ": not found".toList, 127)
  | .denied _ | .isDirectory _ => (name ++ [':', ' '] ++ SystemError.denied.text, 126)
  | .system _ e =>
    (name ++ [':', ' '] ++ e.text, if e = .tooManyLinks || e = .nameTooLong then 127 else 126)
  | f => (f.message, 127)

/-- The path of the program that a name stands for, or why there is none. -/
def programPath (s : ShellState) (usual : Bool) (name : Text) : Except StartFailure Text :=
  if name.contains '/' then .ok name
  else match s.locate? usual name with
    | some path => .ok path
    | none => .error (StartFailure.ofSystem (fun _ => false) name (s.missing usual name))

/-- Runs a program that is not part of the shell. -/
def runProgram (host : ShellHost) (usual : Bool) (words : List Text) (s : ShellState) :
    ShellState :=
  let name := words.headD []
  match s.programPath usual name with
  | .error f => s.report (startFault name f).1 127
  | .ok path =>
    let s := if name.contains '/' || usual then s else s.remember name path
    let (child, outcome) := host.start path words (s.forProgram s.process.fork)
    let s := { s with process := s.process.adopt child }
    match outcome with
    | .ok (.exited n) => (s.settle n).hearOfChild
    | .ok (.signalled n) =>
      (s.tellSignal n).hearOfChild
    | .error f =>
      let (why, status) := startFault name f
      s.report why status

/-- The program takes the place of the shell. -/
def become : Builtin := fun host words s =>
  let stop (f : StartFailure) : ShellState :=
    let (why, status) := startFault (words.headD []) f
    (s.report why status).finish (.exited status)
  match words with
  | [] => s.settle 0
  | name :: _ =>
    match s.programPath false name with
    | .error f => stop f
    | .ok path =>
      match host.start path words (s.forProgram s.process) with
      | (_, .error f) => stop f
      | (child, .ok outcome) =>
        { s with process := s.process.adopt child, traps := [] }.finish outcome

/-! ## Functions -/

/-- The deepest nesting of functions. -/
def maxCalls : Nat := 1000

/-- Runs a function: its parameters are those of the shell while it runs, and a halt of its own
ends with it. -/
def invoke (host : ShellHost) (f : Function) (args : List Text) (s : ShellState) : ShellState :=
  if maxCalls ≤ s.calls then
    s.fail "Maximum function recursion depth (1000) reached".toList
  else
    let after := host.run f.body
      { s.enter with
        parameters := args
        optionPlace := {}
        loops := 0
        calls := s.calls + 1
        newlines := f.newlines }
    let halt := if after.halt = some .back then none else after.halt
    { after with
      parameters := s.parameters
      optionPlace := s.optionPlace
      loops := s.loops
      calls := s.calls
      newlines := s.newlines
      line := s.line
      halt }.depart

/-! ## Commands of the shell -/

/-- A program that is built into the shell. -/
def ofProgram (program : Program.Speaker → Program) : Builtin := fun _ args s =>
  let (process, status) := program ⟨s.name, s.voice, true⟩ args s.process
  { s with process, status := status.code }

/-- The commands of the shell. -/
def builtins : List (String × Builtin) :=
  [(":", fun _ _ s => s.settle 0), ("true", fun _ _ s => s.settle 0),
   ("false", fun _ _ s => s.settle 1),
   ("echo", ofProgram fun _ => Program.shellEcho), ("printf", ofProgram Program.shellFormat),
   ("test", ofProgram Program.condition), ("[", ofProgram Program.bracketed),
   ("exit", exit), ("return", goBack), ("break", leaveLoops .leave),
   ("continue", leaveLoops .again), ("eval", evaluate), (".", source), ("exec", become),
   ("export", declare "export " passOn exported), ("readonly", declare "readonly " fix readOnly),
   ("local", localize), ("unset", unset), ("set", setUp), ("shift", shift), ("read", readLine),
   ("getopts", nextOption), ("cd", changeDir), ("chdir", changeDir), ("pwd", showDir),
   ("umask", limitRights), ("ulimit", showLimits), ("trap", trap), ("kill", kill),
   ("wait", await), ("jobs", showJobs), ("fg", moveJob), ("bg", moveJob), ("times", showTimes),
   ("alias", defineAliases), ("unalias", dropAliases), ("type", describeAll),
   ("command", describeOne), ("hash", findPrograms)]

/-- Runs a command of the shell. A fault in it ends only the command, unless it is a special one. -/
def runBuiltin (host : ShellHost) (isSpecial : Bool) (name : Text) (command : Builtin)
    (args : List Text) (s : ShellState) : ShellState :=
  let after := command host args { s with within := name ++ [':', ' '] }
  let after := match after.process.writeFault with
    | none => after
    | some _ =>
      let silent := { after with process := { after.process with writeFault := none } }
      { silent with within := name ++ [':', ' '] }.report (name ++ ": I/O error".toList)
        (after.status ||| 1)
  let halt := if after.halt = some .fault && !isSpecial then none else after.halt
  { after with within := s.within, halt }

/-- The name is that of a special command. -/
def isSpecial (name : Text) : Bool := specialCommands.contains (String.ofList name)

/-- The arguments behind letters that choose the usual directories for programs, and whether there
are such letters. -/
def skipUsual (usual : Bool) : List Text → Bool × List Text
  | ['-', '-'] :: rest => (usual, rest)
  | ('-' :: c :: cs) :: rest =>
    if (c :: cs).all (· = 'p') then skipUsual true rest else (usual, ('-' :: c :: cs) :: rest)
  | rest => (usual, rest)

/-- The words behind the commands that only say that no function is meant. Two flags tell whether
there are any, and whether only the usual directories for programs count. -/
def unwrap : Nat → Bool → Bool → List Text → Bool × Bool × List Text
  | 0, plain, usual, words => (plain, usual, words)
  | n + 1, plain, usual, words =>
    match words with
    | name :: args =>
      if name = "command".toList then
        match skipUsual usual args with
        | (_, ('-' :: _ :: _) :: _) | (_, []) => (true, usual, words)
        | (usual, rest) => unwrap n true usual rest
      else (plain, usual, words)
    | [] => (plain, usual, words)

/-- Runs a command of which the arguments are known. -/
def call (host : ShellHost) (words : List Text) (s : ShellState) : ShellState :=
  let function? := words.head?.bind fun name => s.functions.lookup name
  match function? with
  | some f => s.invoke host f words.tail
  | none =>
    let (plain, usual, words) := unwrap words.length false false words
    match words with
    | [] => s.settle 0
    | name :: args =>
      match builtins.lookup (String.ofList name) with
      | some command => s.runBuiltin host (!plain && isSpecial name) name command args
      | none => s.runProgram host usual words

end ShellState

end Fanout
