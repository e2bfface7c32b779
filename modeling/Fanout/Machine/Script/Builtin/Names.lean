import Fanout.Machine.Script.Builtin.Arguments

/-!
# Commands for the names of commands

A name at the start of a command can be a reserved word, an alias, a function, a command of the
shell, or a program that stands in one of the directories for programs.

* `ShellState.locate?`: the path of a program.
* `ShellState.describe`: what a name stands for.
-/

namespace Fanout

/-- The commands of the shell that are no special ones. -/
def usualCommands : List String :=
  ["[", "alias", "bg", "cd", "chdir", "command", "echo", "false", "fg", "getopts", "hash", "jobs",
   "kill", "printf", "pwd", "read", "test", "true", "type", "ulimit", "umask", "unalias", "wait"]

/-- The name is that of a command of the shell. -/
def isShellCommand (name : Text) : Bool :=
  specialCommands.contains (String.ofList name) || usualCommands.contains (String.ofList name)

/-- Names with what belongs to them, in the order of a table with `size` rows. The row of a name is
computed from its characters. -/
def inRows {α : Type} (size : Nat) (entries : List (Text × α)) : List (Text × α) :=
  let row (name : Text) : Nat :=
    let codes := (byteChars (Text.toUtf8 name)).map Char.toNat
    (16 * codes.headD 0 + codes.foldl (· + ·) 0) % size
  (List.range size).flatMap fun k => entries.filter fun (name, _) => row name = k

namespace ShellState

/-! ## Programs -/

/-- The directories for programs, unless a script chooses others. -/
def usualPath : Text := "/usr/local/sbin:/usr/local/bin:/usr/sbin:/usr/bin:/sbin:/bin".toList

/-- The paths that a name has in the directories for programs. -/
def pathsOf (s : ShellState) (usual : Bool) (name : Text) : List Text :=
  let places := if usual then usualPath else (s.bindings.lookup "PATH".toList).getD []
  (places.splitOn ':').map fun place => if place.isEmpty then name else place ++ '/' :: name

/-- The path of a program in the directories for programs. -/
def locate? (s : ShellState) (usual : Bool) (name : Text) : Option Text :=
  (s.pathsOf usual name).find? fun path =>
    match s.process.tree.node? path with
    | .ok (.program _) => true
    | _ => false

/-- The path of the program is remembered. -/
def remember (s : ShellState) (name path : Text) : ShellState :=
  if (s.found.lookup name).isSome then s else { s with found := s.found ++ [(name, path)] }

/-! ## Aliases -/

/-- The alias as it would be written to define it. -/
def aliasText (name value : Text) : Text := name ++ '=' :: quoteWord value

/-- Aliases are defined or shown one after another. -/
def aliasEach : List Text → ShellState → ShellState
  | [], s => s
  | a :: rest, s =>
    let name := a.take 1 ++ a.tail.takeWhile (· ≠ '=')
    match a.drop name.length with
    | _ :: value =>
      let isNew := (s.aliases.lookup name).isNone
      let aliases := if isNew then s.aliases ++ [(name, value)]
        else s.aliases.map fun (n, old) => if n = name then (n, value) else (n, old)
      aliasEach rest { s with aliases }
    | [] =>
      match s.aliases.lookup name with
      | some value => aliasEach rest (s.say (aliasText name value ++ ['\n']))
      | none =>
        let why := "alias: ".toList ++ name ++ " not found".toList
        aliasEach rest { s with process := s.process.complain why, status := 1 }

/-- Aliases are defined or shown. -/
def defineAliases : Builtin := fun _ args s =>
  if args.isEmpty then
    (s.say ((inRows 39 s.aliases).flatMap fun (n, v) => aliasText n v ++ ['\n'])).settle 0
  else aliasEach args (s.settle 0)

/-- Aliases are forgotten. -/
def dropAliases : Builtin := fun _ args s =>
  s.withFlags ['a'] [] args fun flags names =>
    if !flags.isEmpty then { s with aliases := [], status := 0 }
    else names.foldl (fun s name =>
      if (s.aliases.lookup name).isSome then
        { s with aliases := s.aliases.filter (·.1 ≠ name) }
      else
        let why := "unalias: ".toList ++ name ++ " not found".toList
        { s with process := s.process.complain why, status := 1 }) (s.settle 0)

/-! ## Descriptions -/

/-- What a name stands for, in words or as short as possible. -/
def describe (s : ShellState) (inWords usual : Bool) (name : Text) : ShellState :=
  let answer (words : Text) (brief : Text) : ShellState :=
    (s.say ((if inWords then name ++ words else brief) ++ ['\n'])).settle 0
  let unknown : ShellState :=
    (if inWords then s.say (name ++ ": not found\n".toList) else s).settle 127
  if ("in" :: reservedWords).contains (String.ofList name) then
    answer " is a shell keyword".toList name
  else match s.aliases.lookup name with
    | some value =>
      answer (" is an alias for ".toList ++ value) ("alias ".toList ++ aliasText name value)
    | none =>
      if name.contains '/' then
        if (s.process.tree.node? name).isOk then answer (" is ".toList ++ name) name else unknown
      else if (s.functions.lookup name).isSome then answer " is a shell function".toList name
      else if specialCommands.contains (String.ofList name) then
        answer " is a special shell builtin".toList name
      else if usualCommands.contains (String.ofList name) then
        answer " is a shell builtin".toList name
      else match if usual then none else s.found.lookup name with
        | some path => answer (" is a tracked alias for ".toList ++ path) path
        | none =>
          match s.locate? usual name with
          | some path => answer (" is ".toList ++ path) path
          | none => unknown

/-- Says what names stand for. -/
def describeAll : Builtin := fun _ args s =>
  args.foldl (fun s name =>
    let after := s.describe true false name
    after.settle (s.status ||| after.status)) (s.settle 0)

/-- Says what a name stands for, if there are letters that ask for that. -/
def describeOne : Builtin := fun _ args s =>
  s.withFlags ['p', 'v', 'V'] [] args fun flags names =>
    match names with
    | name :: _ => if flags.any (·.1 ≠ 'p') then
        s.describe (flags.any (·.1 = 'V')) (flags.any (·.1 = 'p')) name
      else s.settle 0
    | [] => s.settle 0

/-- Shows or forgets the programs that were found, or finds others. -/
def findPrograms : Builtin := fun _ args s =>
  s.withFlags ['r'] [] args fun flags names =>
    if !flags.isEmpty then { s with found := [], status := 0 }
    else if names.isEmpty then
      (s.say ((inRows 31 s.found).flatMap fun (_, path) => path ++ ['\n'])).settle 0
    else names.foldl (fun s name =>
      if isShellCommand name || (s.functions.lookup name).isSome || name.contains '/' then s
      else match s.locate? false name with
        | some path => s.remember name path
        | none => s.report (name ++ ": not found".toList) 1) (s.settle 0)

end ShellState

end Fanout
