import Fanout.Text.Numeral

/-!
# Errors of the operating system

The system answers a failed call with a number, for which its library has a text. Reading can also
fail for two reasons of its own: a path that holds a NUL character cannot be handed to the system
at all, and bytes that are not UTF-8 are no text.

* `SystemError.message`: the text of an error, followed by its number.
-/

namespace Fanout

/-- A failed system call. -/
inductive SystemError where
  | notPermitted
  /-- No such file or directory. -/
  | notFound
  /-- No such device or address. -/
  | noDevice
  | argumentsTooLong
  /-- No file is open under this number. -/
  | badDescriptor
  | tooManyProcesses
  /-- No permission for this file. -/
  | denied
  | fileExists
  | notADirectory
  | isADirectory
  /-- No space is left on the device. -/
  | noSpace
  | nameTooLong
  /-- A path that leads through too many symbolic links. -/
  | tooManyLinks
  /-- Any other error, with what the system has on it. -/
  | other (code : Nat) (text : Text)
  deriving DecidableEq, Repr

namespace SystemError

/-- The number of the error. -/
def code : SystemError → Nat
  | .notPermitted => 1
  | .notFound => 2
  | .noDevice => 6
  | .argumentsTooLong => 7
  | .badDescriptor => 9
  | .tooManyProcesses => 11
  | .denied => 13
  | .fileExists => 17
  | .notADirectory => 20
  | .isADirectory => 21
  | .noSpace => 28
  | .nameTooLong => 36
  | .tooManyLinks => 40
  | .other code _ => code

/-- The text of the error. -/
def text : SystemError → Text
  | .notPermitted => "Operation not permitted".toList
  | .notFound => "No such file or directory".toList
  | .noDevice => "No such device or address".toList
  | .argumentsTooLong => "Argument list too long".toList
  | .badDescriptor => "Bad file descriptor".toList
  | .tooManyProcesses => "Resource temporarily unavailable".toList
  | .denied => "Permission denied".toList
  | .fileExists => "File exists".toList
  | .notADirectory => "Not a directory".toList
  | .isADirectory => "Is a directory".toList
  | .noSpace => "No space left on device".toList
  | .nameTooLong => "File name too long".toList
  | .tooManyLinks => "Too many levels of symbolic links".toList
  | .other _ text => text

/-- The text of the error with its number. -/
def message (e : SystemError) : Text :=
  e.text ++ " (os error ".toList ++ Text.numeral e.code ++ [')']

end SystemError

/-- Why a file could not be opened or read. -/
inductive IoFault where
  /-- The system refused. -/
  | system (error : SystemError)
  /-- The path holds a NUL character. -/
  | nulInPath
  /-- The bytes are not UTF-8. -/
  | notUtf8
  deriving DecidableEq, Repr

namespace IoFault

/-- The text of the fault. -/
def message : IoFault → Text
  | .system e => e.message
  | .nulInPath => "file name contained an unexpected NUL byte".toList
  | .notUtf8 => "stream did not contain valid UTF-8".toList

end IoFault

end Fanout
