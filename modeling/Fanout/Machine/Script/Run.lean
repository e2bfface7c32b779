import Fanout.Machine.Script.Reader
import Fanout.Machine.Script.Simple

/-!
# Running scripts

A shell runs a script line by line. A shell that has ended does nothing any more. Commands in a
pipe and in parentheses work on a copy of the shell, of which only what all processes share is
kept.

* `Script.eval`: what a script does to a shell.
* `interpretText`: a whole text, read and run line by line.
* `hostAt`: what a shell needs from the machine, when scripts can stand in each other.
-/

namespace Fanout

/-! ## Loops -/

/-- The most rounds of a loop that has an end. -/
def maxRounds : Nat := 100000

namespace ShellState

/-- The shell behind a round of a loop, and whether the loop goes on. -/
def afterRound (s : ShellState) : ShellState × Bool :=
  match s.halt with
  | none => (s, true)
  | some (.leave n) =>
    ({ s with halt := if n ≤ 1 then none else some (.leave (n - 1)) }, false)
  | some (.again n) =>
    if n ≤ 1 then ({ s with halt := none }, true)
    else ({ s with halt := some (.again (n - 1)) }, false)
  | some _ => (s, false)

/-- The shell at work in one more loop. -/
def inLoop (s : ShellState) (run : ShellState → ShellState) : ShellState :=
  { run { s with loops := s.loops + 1 } with loops := s.loops }

/-- The shell at work on something whose end is looked at. -/
def testing (s : ShellState) (run : ShellState → ShellState) : ShellState :=
  { run { s with tested := true } with tested := s.tested }

end ShellState

/-- A body, as often as a condition ends the wanted way. -/
def iterate (condition body : ShellState → ShellState) (onSuccess : Bool) :
    Nat → ShellState → ShellState
  | 0, s => { s with halt := some .endless }
  | n + 1, s =>
    let (tested, goesOn) := (s.testing condition).afterRound
    if tested.isHalted || !goesOn then tested
    else if (tested.status = 0) = onSuccess then
      let (after, goesOn) := (body tested).afterRound
      if goesOn then iterate condition body onSuccess n after else after
    else tested.settle s.status

/-- A body for each of the values of a variable. -/
def iterateOver (name : Text) (body : ShellState → ShellState) :
    List Text → ShellState → ShellState
  | [], s => s
  | v :: vs, s =>
    let s := s.set name v
    if s.isHalted then s
    else
      let (after, goesOn) := (body s).afterRound
      if goesOn then iterateOver name body vs after else after

/-! ## Processes -/

namespace ShellState

/-- A body at work in a copy of the shell, to its end. -/
def inCopy (host : ShellHost) (body : ShellState → ShellState) (s : ShellState) : ShellState :=
  (body s.fork).conclude host

/-- The shell with one channel led elsewhere. -/
def leading (s : ShellState) (channel : Nat) (d : Descriptor) : ShellState :=
  { s with process := s.process.connect channel (some d) }

/-- Two bodies, each in a copy of its own, the second one reading what the first one writes. -/
def pipe (host : ShellHost) (first second : ShellState → ShellState) (s : ShellState) :
    ShellState :=
  let (n, process) := s.process.addStream (.pipe [])
  let opened := { s with process }
  let sender := inCopy host (fun c => first (c.leading 1 ⟨n, false, true⟩)) opened
  let sent := { opened.absorb sender with halt := none }
  let receiver := inCopy host (fun c => second (c.leading 0 ⟨n, true, false⟩))
    (sent.settle s.status)
  let after := sent.absorb receiver
  { after with process := after.process.dropSince s.process.freshStream }

/-- The signals that a process does not heed when nobody waits for it. -/
def quietSignals : List Nat := [2, 3]

/-- A body in a copy that nobody waits for. There is nothing to read for it. -/
def beside (host : ShellHost) (body : ShellState → ShellState) (s : ShellState) : ShellState :=
  let start (c : ShellState) : ShellState :=
    let (n, p) := c.process.addStream .sink
    let process := { p.connect 0 (some ⟨n, true, false⟩) with ignored := quietSignals ++ p.ignored }
    body { c with process, tested := false }
  let copy := inCopy host start s
  let status := if copy.halt = some Halt.endless then none else some copy.ending
  { s.absorb copy with jobs := (copy.process.id, status) :: s.jobs, status := 0, halt := none }

end ShellState

/-! ## Scripts -/

/-- The text is described by one of the patterns; and the shell behind their expansion. -/
def describes (host : ShellHost) (subject : Text) :
    List Word → ShellState → Bool × ShellState
  | [], s => (false, s)
  | w :: ws, s =>
    let (atoms, s) := Word.expand host (w.withHomes (s.bindings.lookup "HOME".toList) false) s
    if s.isHalted then (false, s)
    else if Wildcard.covers (atomSigns s.joint atoms) subject then (true, s)
    else describes host subject ws s

mutual

/-- What a script does to a shell. -/
def Script.eval (host : ShellHost) : Script → ShellState → ShellState
  | .skip, s => if s.isHalted then s else s.settle 0
  | .simple behind assignments words redirects, s =>
    attend host (fun s => (s.atLine behind).runSimple host assignments words redirects) s
      |>.check
  | .redirected behind body redirects, s =>
    attend host (fun s =>
      let (targets, s) := ShellState.expandTargets host redirects (s.atLine behind)
      if s.isHalted then s
      else match ShellState.redirect host targets s with
        | (opened, false) => (opened.reconnect s redirects).check
        | (opened, true) => (Script.eval host body opened).reconnect s redirects) s
  | .apart body, s =>
    attend host (fun s => s.absorb (s.inCopy host (fun s => Script.eval host body s))) s |>.check
  | .beside body, s => attend host (fun s => s.beside host (fun s => Script.eval host body s)) s
  | .piped first second, s =>
    attend host (fun s =>
      s.pipe host (fun s => Script.eval host first s) (fun s => Script.eval host second s)) s
      |>.check
  | .negated body, s =>
    attend host (fun s =>
      let after := s.testing (fun s => Script.eval host body s)
      if after.isHalted then after else after.settle (if after.status = 0 then 1 else 0)) s
  | .andThen first second, s =>
    attend host (fun s =>
      let after := s.testing (fun s => Script.eval host first s)
      if !after.isHalted && after.status = 0 then Script.eval host second after else after) s
  | .orElse first second, s =>
    attend host (fun s =>
      let after := s.testing (fun s => Script.eval host first s)
      if !after.isHalted && after.status ≠ 0 then Script.eval host second after else after) s
  | .next first second, s =>
    attend host (fun s => Script.eval host second (Script.eval host first s)) s
  | .branch condition yes no, s =>
    attend host (fun s =>
      let after := s.testing (fun s => Script.eval host condition s)
      if after.isHalted then after
      else if after.status = 0 then Script.eval host yes after
      else Script.eval host no after) s
  | .loop onSuccess condition body, s =>
    attend host (fun s =>
      (s.settle 0).inLoop
        (iterate (fun s => Script.eval host condition s) (fun s => Script.eval host body s)
          onSuccess maxRounds)) s
  | .each behind name words body, s =>
    attend host (fun s =>
      let (args, s) := expandWords host words (s.atLine behind)
      if s.isHalted then s
      else (s.settle 0).inLoop (iterateOver name (fun s => Script.eval host body s) args)) s
  | .choose behind subject arms, s =>
    attend host (fun s =>
      let (text, s) := Word.text host false subject (s.atLine behind)
      if s.isHalted then s else Arms.eval host text arms (s.settle 0)) s
  | .define _ name body, s =>
    attend host (fun s =>
      let f : Function := ⟨body, s.newlines⟩
      { s with functions := (name, f) :: s.functions.filter (·.1 ≠ name), status := 0 }) s

/-- What the first of the arms that suits the subject does to a shell. -/
def Arms.eval (host : ShellHost) (subject : Text) : Arms → ShellState → ShellState
  | .none, s => s
  | .arm patterns body others, s =>
    let (suits, s) := describes host subject patterns s
    if s.isHalted then s
    else if suits then Script.eval host body s
    else Arms.eval host subject others s

end

/-! ## Texts -/

/-- The shell shows a text that it has read, if it is told to. -/
def ShellState.echo (s : ShellState) (t : Text) : ShellState :=
  if s.isOn .echoed then { s with process := s.process.write .errors (Text.toUtf8 t) } else s

/-- Runs the lines of a script, at most `n` of them, and shows them if they come from outside. A line
that cannot be read is a fault. -/
def interpretLines (host : ShellHost) (outside : Bool) : Nat → Text → ShellState → ShellState
  | 0, _, s => s
  | n + 1, t, s =>
    if s.isHalted then s
    else match Script.readLine s.aliases t with
      | .error f => (s.atLine f.behind).fail ("Syntax error: ".toList ++ f.message)
      | .ok (line, rest) =>
        let s := if outside then s.echo (t.take (t.length - rest.length)) else s
        match line with
        | .skip => s
        | line => interpretLines host outside n rest (Script.eval host line s)

/-- Runs a script in a shell, which goes on with its own script behind it. The number of newlines up
to the end of the script is given, if it does not begin with the first line. -/
def interpretText (host : ShellHost) (outside : Bool) (newlines : Option Nat) (t : Text)
    (s : ShellState) : ShellState :=
  let newlines := newlines.getD (t.count '\n')
  let after := interpretLines host outside (t.length + 1) t { s with newlines }
  { after with newlines := s.newlines, line := s.line }

/-- What a shell needs from the machine. Scripts in words, functions and commands may stand in each
other, at most `depth` deep. -/
def hostAt (start : Text → List Text → Process → Process × Except StartFailure ExitStatus) :
    Nat → ShellHost
  | 0 => ⟨start, fun _ _ s => s.fail "too deep".toList,
    fun _ s => s.fail "too deep".toList⟩
  | depth + 1 =>
    ⟨start, fun lines t s => interpretText (hostAt start depth) false lines t s,
      fun body s => Script.eval (hostAt start depth) body s⟩

end Fanout
