import Fanout.Text.Numeral

/-!
# Signals

A signal is a number that one process sends to another. Most of them end a process that has not
been told what to do.

* `Signal.read?`: the signal that a text names.
* `Signal.name`: the name of a signal.
-/

namespace Fanout

namespace Signal

/-- The names of the signals with a meaning, from number one on; those without a name have none. -/
def names : List String :=
  ["HUP", "INT", "QUIT", "ILL", "TRAP", "ABRT", "BUS", "FPE", "KILL", "USR1", "SEGV", "USR2",
   "PIPE", "ALRM", "TERM", "", "CHLD", "CONT", "STOP", "TSTP", "TTIN", "TTOU", "URG", "XCPU",
   "XFSZ", "VTALRM", "PROF", "WINCH", "IO", "PWR", "SYS"]

/-- No signal has this number or a larger one. -/
def count : Nat := 65

/-- The first signal without a meaning of its own. -/
def firstFree : Nat := 34

/-- The name of a signal; zero stands for the end of a shell. -/
def name (n : Nat) : Text :=
  if n = 0 then "EXIT".toList
  else match names[n - 1]? with
    | some s => if s.isEmpty then Text.numeral n else s.toList
    | none =>
      if n < firstFree then Text.numeral n
      else if n = firstFree then "RTMIN".toList
      else if n < 50 then "RTMIN+".toList ++ Text.numeral (n - firstFree)
      else if n = 64 then "RTMAX".toList
      else "RTMAX-".toList ++ Text.numeral (64 - n)

/-- The signal that a text names, by number or by name, from number `least` on. -/
def read? (least : Nat) (t : Text) : Option Nat :=
  if Text.isDigits t then if Text.value t < count then some (Text.value t) else none
  else (List.range count).find? fun n => least ≤ n && name n = t.map Char.toUpper

/-- The signals that do not end a process by themselves. -/
def isHarmless (n : Nat) : Bool := [0, 17, 18, 23, 28].contains n

/-- The signals that no process can be told how to take. -/
def isFinal (n : Nat) : Bool := n = 9 || n = 19

/-- What a shell says when a signal ended a program. -/
def texts : List (Nat × String) :=
  [(1, "Hangup"), (3, "Quit"), (4, "Illegal instruction"), (5, "Trace/breakpoint trap"),
   (6, "Aborted"), (7, "Bus error"), (8, "Floating point exception"), (9, "Killed"),
   (10, "User defined signal 1"), (11, "Segmentation fault"), (12, "User defined signal 2"),
   (14, "Alarm clock"), (15, "Terminated")]

/-- The signal that tells about the end of a process that the one it is sent to has started. -/
def childEnded : Nat := 17

end Signal

end Fanout
