import Fanout.Machine.Script.Run

/-!
# Starting a shell

A shell is given a script as an argument, as a file, or as its standard input. Letters in front of
that turn its switches on.

* `ShellCall.read`: how the arguments of a shell are meant.
* `startShell`: what a shell does with its arguments, and how it ends.
-/

namespace Fanout

/-- Where a shell has its script from. -/
inductive ScriptSource where
  | given (script : Text)
  | file (path : Text)
  | input
  deriving Repr

/-- How a shell is called. -/
structure ShellCall where
  switches : List Switch
  sources : List ScriptSource
  name : Text
  parameters : List Text
  /-- Lists of switches to write. -/
  lists : Text

namespace ShellCall

/-- How the arguments of a shell are meant that is called by the name. -/
def read (name : Text) (args : List Text) : Except Text ShellCall := do
  let r ← changeSwitches true (args.length + 1) { on := [], rest := args }
  let fromInput : List ScriptSource := if r.on.contains .fromInput then [.input] else []
  match r.hasScript, r.rest with
  | true, [] => .error "-c requires an argument".toList
  | true, [script] => .ok ⟨r.on, .given script :: fromInput, name, [], r.lists⟩
  | true, script :: name :: parameters =>
    .ok ⟨r.on, .given script :: fromInput, name, parameters, r.lists⟩
  | false, [] => .ok ⟨setSwitch true .fromInput r.on, [.input], name, [], r.lists⟩
  | false, path :: rest =>
    if fromInput.isEmpty then .ok ⟨r.on, [.file path], path, rest, r.lists⟩
    else .ok ⟨r.on, fromInput, name, path :: rest, r.lists⟩

end ShellCall

/-- The variables that a shell has of its own. -/
def ownVariables (p : Process) : List (Text × Text) :=
  [("IFS".toList, usualSeparators), ("OPTIND".toList, ['1']),
   ("PPID".toList, Text.numeral (p.ancestors.headD 1))]

/-- The variables that a shell has unless it is started with others. -/
def usualVariables : List (Text × Text) :=
  [("PS1".toList, "# ".toList), ("PS2".toList, "> ".toList), ("PS4".toList, "+ ".toList),
   ("PATH".toList, ShellState.usualPath)]

/-- The path of the working directory: the one that the process was started with, if it is one. -/
def startDirectory (p : Process) : Text :=
  let real := locationPath p.tree.workingDir
  match p.environment.lookup "PWD".toList with
  | some path =>
    let leadsHere := match p.tree.resolve path true with
      | .ok l => Path.isAbsolute path && l = p.tree.workingDir
      | .error _ => false
    if leadsHere then path else real
  | none => real

/-- A shell at its start. -/
def ShellState.ofCall (c : ShellCall) (p : Process) : ShellState :=
  let given := p.environment.filter fun (name, _) => isName name
  let own := ownVariables p
  let others := usualVariables.filter fun (name, _) => (given.lookup name).isNone
  let bindings := own ++ given.filter (fun (name, _) => (own.lookup name).isNone) ++ others
  let directory := startDirectory p
  let s : ShellState :=
    { process := p
      name := c.name
      leader := p.id
      parameters := c.parameters
      bindings
      exported := given.map Prod.fst
      directory
      switches := c.switches
      line := 0 }
  (s.assign "PWD".toList directory).passOn "PWD".toList

/-- Runs a script of a shell. -/
def ShellState.runSource (host : ShellHost) (s : ShellState) (source : ScriptSource) : ShellState :=
  let toText (b : ByteArray) : Text := (Text.ofUtf8? b).getD (byteChars b)
  if s.isHalted then s
  else match source with
    | .given script => interpretText host false none script { s with line := 1 }
    | .file path =>
      match s.process.tree.open? path with
      | .ok e =>
        interpretText host true none (toText (e.bytes.toOption.getD .empty))
          { s with line := 1 }
      | .error f => s.fail (openFault false path f)
    | .input =>
      let (content, process) := s.process.drain
      interpretText host true none (toText (content.toOption.getD .empty))
        { s with process, line := 1 }

/-- What a shell does that is called by the first of the words, and how it ends. -/
def startShell (host : ShellHost) (words : List Text) (p : Process) : Process × ExitStatus :=
  let name := words.headD []
  match ShellCall.read name words.tail with
  | .error why => (p.complain (name ++ ": 0: ".toList ++ why), .exited 2)
  | .ok c =>
    let s := (ShellState.ofCall { c with name } p).say c.lists
    let s := if c.switches.any fun w => w = .interactive || w = .jobControl then
        { s.report "can't access tty; job control turned off".toList 0 with
          switches := c.switches.filter (· ≠ .jobControl) }
      else s
    let missing (source : ScriptSource) : Bool := match source with
      | .file path => !(p.tree.open? path).isOk
      | _ => false
    let s := if c.sources.any missing then s else { s with name := c.name }
    let after := (c.sources.foldl (ShellState.runSource host) s).conclude host
    (after.process, after.ending)

end Fanout
