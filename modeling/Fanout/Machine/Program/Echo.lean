import Fanout.Machine.Program.Escape
import Fanout.Machine.Program.Operands

/-!
# Echo

Writes its arguments with a space between neighbours, and a newline behind them. As a program of
its own it leaves backslashes alone unless it is told otherwise; built into a shell it always
reads them.
-/

namespace Fanout

namespace Program

/-- How arguments are written. -/
structure EchoMode where
  newline : Bool := true
  /-- Backslash sequences are replaced. -/
  escapes : Bool := false

/-- The argument is a row of option letters. -/
def isEchoOption : Text → Bool
  | '-' :: c :: t => (c :: t).all fun l => l = 'n' || l = 'e' || l = 'E'
  | _ => false

/-- The mode behind one option letter. -/
def EchoMode.adjust (m : EchoMode) (c : Char) : EchoMode :=
  if c = 'n' then { m with newline := false } else { m with escapes := c = 'e' }

/-- The mode that the leading options ask for, and the arguments behind them. -/
def echoMode (m : EchoMode) : List Text → EchoMode × List Text
  | [] => (m, [])
  | a :: rest =>
    if isEchoOption a then echoMode (a.tail.foldl EchoMode.adjust m) rest else (m, a :: rest)

/-- The bytes of arguments, as characters. -/
def echoText (style : EscapeStyle) (m : EchoMode) (args : List Text) : Text :=
  let line := byteChars (Text.toUtf8 (Text.join [' '] args))
  let ending := if m.newline then ['\n'] else []
  if m.escapes then
    match decodeEscapes style line.length line with
    | (shown, true) => shown ++ ending
    | (shown, false) => shown
  else line ++ ending

/-- The program. -/
def echo (s : Speaker) : Program := fun args p =>
  let (m, rest) := echoMode {} args
  s.closeOutput 1
    (p.write .output (ofByteChars (echoText { hexadecimal := true } m rest)), .success)

/-- The command of a shell. It knows one option, and only as its first argument. -/
def shellEcho : Program := fun args p =>
  match args with
  | ['-', 'n'] :: rest =>
    (p.write .output (ofByteChars (echoText {} ⟨false, true⟩ rest)), .success)
  | _ => (p.write .output (ofByteChars (echoText {} ⟨true, true⟩ args)), .success)

end Program

end Fanout
