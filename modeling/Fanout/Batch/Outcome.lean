import Fanout.Fault.System
import Fanout.Text.Numeral

/-!
# How a program ends, or does not start

A program that was started ends with an exit code or by a signal. A program that could not be
started leaves the reason.

* `ExitStatus.code`: one number for both ways to end; a signal counts from 128 on.
* `StartFailure.ofSystem`: the reason behind a system error.
-/

namespace Fanout

/-- How a program ended. -/
inductive ExitStatus where
  | exited (code : Nat)
  | signalled (signal : Nat)
  deriving DecidableEq, Repr

namespace ExitStatus

/-- The end as one number, as shells show it. -/
def code : ExitStatus → Nat
  | .exited n => n
  | .signalled n => 128 + n

/-- The program ended by itself and without an error. -/
def isSuccess (s : ExitStatus) : Bool := s = .exited 0

end ExitStatus

/-- Why a program could not be started. -/
inductive StartFailure where
  /-- There is no program name. -/
  | emptyCommand
  /-- A word holds a NUL character. -/
  | nulInWord (program : Text)
  | notFound (program : Text)
  | denied (program : Text)
  | isDirectory (program : Text)
  /-- Any other error of the system. -/
  | system (program : Text) (error : SystemError)
  deriving DecidableEq, Repr

namespace StartFailure

/-- The reason behind an error of the system. A program named by a path may be a directory; that is
told apart from a file that must not be run. -/
def ofSystem (isDir : Text → Bool) (program : Text) (e : SystemError) : StartFailure :=
  if e = .notFound then .notFound program
  else if e = .denied || e = .notPermitted then
    if program.contains '/' && isDir program then .isDirectory program else .denied program
  else .system program e

/-- The message of a failure. -/
def message : StartFailure → Text
  | .emptyCommand => "empty command".toList
  | .nulInWord program => program ++ ": nul byte found in provided data".toList
  | .notFound program => program ++ ": command not found".toList
  | .denied program => program ++ ": permission denied".toList
  | .isDirectory program => program ++ ": is a directory".toList
  | .system program e => program ++ [':', ' '] ++ e.message

end StartFailure

end Fanout
