import Fanout.Machine.Script.Builtin.Names

/-!
# Commands for the course of a script

A script can end itself, a function or a loop, and can run other texts in its own shell.
-/

namespace Fanout

namespace ShellState

/-! ## Ends -/

/-- Ends the shell with a code, or with that of the last command. -/
def exit : Builtin := fun _ args s =>
  match args with
  | [] => s.finish (.exited (s.interrupted.getD s.status))
  | code :: _ => s.withNumber code fun n => s.finish (.exited n)

/-- Ends the function with a code, or with that of the last command. -/
def goBack : Builtin := fun _ args s =>
  match args with
  | [] => { s with halt := some .back }
  | code :: _ => s.withNumber code fun n => { s with halt := some .back, status := n }

/-- Ends loops, or their rounds. Outside loops there is nothing to end. -/
def leaveLoops (halt : Nat → Halt) : Builtin := fun _ args s =>
  let leave (n : Nat) : ShellState :=
    if s.loops = 0 then s.settle 0
    else { s with halt := some (halt (min n s.loops)), status := 0 }
  match args with
  | [] => leave 1
  | t :: _ => s.withNumber t fun n => if n = 0 then s.failNumber t else leave n

/-! ## Other texts -/

/-- Runs a text in the shell. There may be nothing in it to run. -/
def runText (host : ShellHost) (text : Text) (s : ShellState) : ShellState :=
  if (skipLines false text).isEmpty then s.settle 0 else host.interpret none text s

/-- Runs its arguments as a text. -/
def evaluate : Builtin := fun host args s => s.runText host (Text.join [' '] args)

/-- The path of a script: one without slashes is looked for where programs are. -/
def scriptPath? (s : ShellState) (name : Text) : Option Text :=
  if name.contains '/' then some name
  else (s.pathsOf false name).find? fun path =>
    match s.process.tree.metadata path with
    | .ok k => k = .file
    | .error _ => false

/-- Runs the script of a file. What returns from it goes on behind it. -/
def source : Builtin := fun host args s =>
  s.withFlags [] [] args fun _ rest =>
    match rest with
    | [] => s.settle 0
    | name :: _ =>
      match s.scriptPath? name with
      | none => s.fail (name ++ ": not found".toList)
      | some path =>
        match s.process.tree.open? path with
        | .error f => s.fail (openFault false path f)
        | .ok e =>
          let content := e.bytes.toOption.getD .empty
          let text := (Text.ofUtf8? content).getD (byteChars content)
          let after := runText host text
            { s with within := path ++ [':', ' '], tested := false }
          let halt := if after.halt = some .back then none else after.halt
          { after with halt, tested := s.tested }

end ShellState

end Fanout
