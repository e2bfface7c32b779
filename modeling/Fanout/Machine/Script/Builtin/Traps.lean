import Fanout.Machine.Script.Builtin.Arguments

/-!
# Commands for signals and processes

A shell can be told what to do when it is sent a signal, can send signals itself, and can wait for
the processes that it left to themselves.
-/

namespace Fanout

namespace ShellState

/-! ## Traps -/

/-- The lines that would bring back what the shell does when a signal arrives. -/
def trapLines (s : ShellState) : Text :=
  (List.range Signal.count).flatMap fun n =>
    match s.traps.lookup n with
    | some script =>
      "trap -- ".toList ++ quoteWord script ++ ' ' :: Signal.name n ++ ['\n']
    | none => []

/-- The script, or the usual behaviour, belongs to signals from now on. -/
def setTraps (script : Option Text) : List Text → ShellState → ShellState
  | [], s => s.settle 0
  | name :: rest, s =>
    match Signal.read? 0 name with
    | some n =>
      let others := s.traps.filter (·.1 ≠ n)
      setTraps script rest { s with traps := (script.map (n, ·)).toList ++ others }
    | none =>
      let why := "trap: ".toList ++ name ++ ": bad trap".toList
      { s with process := s.process.complain why, status := 1 }

/-- Tells the shell what to do when signals arrive. -/
def trap : Builtin := fun _ args s =>
  s.withFlags [] [] args fun _ rest =>
    match rest with
    | [] => (s.say s.trapLines).settle 0
    | [name] => setTraps none [name] s
    | script :: names =>
      if Text.isDigits script && (Signal.read? 0 script).isSome then setTraps none (script :: names) s
      else setTraps (if script = ['-'] then none else some script) names s

/-! ## Sending signals -/

/-- How to send a signal. -/
def killUsage : Text :=
  "Usage: kill [-s sigspec | -signum | -sigspec] [pid | job]... or\nkill -l [exitstatus]".toList

/-- The names of signals, or that of one, given by its number or by how a process ended. -/
def nameSignals (args : List Text) (s : ShellState) : ShellState :=
  match args with
  | [] =>
    let names := (List.range Signal.count).drop 1 |>.flatMap fun n => Signal.name n ++ ['\n']
    (s.say ("0\n".toList ++ names)).settle 0
  | t :: _ => s.withNumber t fun n =>
    let n := if 128 < n then n - 128 else n
    if 0 < n && n < Signal.count then (s.say (Signal.name n ++ ['\n'])).settle 0
    else s.fail ("invalid signal number or exit status: ".toList ++ t)

/-- The job that a text names by its number among all jobs, or as the last one. -/
def job? (s : ShellState) (t : Text) : Option (Nat × Option ExitStatus) :=
  match t with
  | ['%'] | ['%', '%'] | ['%', '+'] => s.jobs.head?
  | ['%', '-'] => s.jobs[1]?
  | '%' :: digits =>
    if Text.isDigits digits && 0 < Text.value digits then s.jobs.reverse[Text.value digits - 1]?
    else none
  | _ => none

/-- Sends a signal to a process, if there is one of that number that still runs. -/
def sendTo (s : ShellState) (signal target : Nat) : Option ShellState :=
  let p := s.process
  if target = p.id || p.ancestors.contains target then
    some { s with process := if signal = 0 then p else p.send target signal }
  else match s.jobs.lookup target with
    | some none =>
      let ends := Signal.isFinal signal || !Signal.isHarmless signal
      some { s with jobs := s.jobs.map fun (id, status) =>
        if id = target && ends then (id, some (.signalled signal)) else (id, status) }
    | _ => none

/-- Sends a signal to processes and jobs. -/
def sendAll (signal : Nat) : List Text → ShellState → ShellState
  | [], s => s
  | t :: ts, s =>
    let send (target : Option Nat) : ShellState :=
      match target.bind (s.sendTo signal) with
      | some s => sendAll signal ts s
      | none => sendAll signal ts (s.report "No such process\n".toList 1)
    match t with
    | '%' :: _ =>
      match s.job? t with
      | some (id, _) => send (some id)
      | none => s.fail ("No such job: ".toList ++ t)
    | '-' :: digits => if Text.isDigits digits then send none else s.failNumber digits
    | digits => if Text.isDigits digits then send (some (Text.value digits)) else s.failNumber digits

/-- Sends a signal, or tells the names of signals. -/
def kill : Builtin := fun _ args s =>
  let send (signal : Nat) (targets : List Text) : ShellState :=
    if targets.isEmpty then s.fail killUsage else sendAll signal targets (s.settle 0)
  match args with
  | ('-' :: name) :: targets =>
    match Signal.read? 1 name with
    | some n => send n targets
    | none =>
      s.withFlags ['l'] ['s'] args fun flags targets =>
        let isList := flags.any (·.1 = 'l')
        match flags.find? fun (c, name) => c = 's' && (Signal.read? 1 name).isNone with
        | some (_, name) => s.fail ("invalid signal number or name: ".toList ++ name)
        | none =>
          match (flags.filter (·.1 = 's')).getLast?.bind fun (_, name) => Signal.read? 1 name with
          | some n => if isList then s.fail killUsage else send n targets
          | none => if isList then nameSignals targets s else send 15 targets
  | targets => send 15 targets

/-! ## Waiting -/

/-- How a job ended. If a signal ended it, that is told once. -/
def awaitOne (s : ShellState) (id : Nat) (status : Option ExitStatus) : ShellState :=
  match status with
  | none => s.settle 0
  | some (.exited n) => s.settle n
  | some (.signalled n) =>
    let told := s.tellSignal n
    { told with jobs := s.jobs.map fun (k, status) =>
      if k = id then (k, some (.exited told.status)) else (k, status) }

/-- How the jobs ended that texts name; the last one counts. -/
def awaitAll : List Text → ShellState → ShellState
  | [], s => s
  | t :: ts, s =>
    match t with
    | '%' :: _ =>
      match s.job? t with
      | some (id, status) => awaitAll ts (s.awaitOne id status)
      | none => s.fail ("No such job: ".toList ++ t)
    | _ => s.withNumber t fun id =>
      awaitAll ts (match s.jobs.lookup id with
        | some status => s.awaitOne id status
        | none => s.settle 127)

/-- Waits for processes: all that can end have ended already. -/
def await : Builtin := fun _ args s =>
  s.withFlags [] [] args fun _ targets => awaitAll targets (s.settle 0)

/-- There is never a job to show. -/
def showJobs : Builtin := fun _ args s => s.withFlags ['l', 'p'] [] args fun _ _ => s.settle 0

/-- There is never a job that could be brought to the front or to the back. -/
def moveJob : Builtin := fun _ args s =>
  s.withFlags [] [] args fun _ targets =>
    match targets with
    | [] => s.fail "No current job".toList
    | t :: _ => s.fail ("No such job: ".toList ++ t)

/-- The time that was used: none. -/
def showTimes : Builtin := fun _ _ s =>
  let line := "0m0.000000s 0m0.000000s\n".toList
  (s.say (line ++ line)).settle 0

end ShellState

end Fanout
