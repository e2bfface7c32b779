import Fanout.Text.Basic

/-!
# Shell scripts

A script is a tree of commands. The simplest one is a row of words; a word is a row of texts,
quoted or not, and of things that are only known when the script runs. A command knows its line by
the number of newlines behind its beginning.
-/

namespace Fanout

/-- What a word wants of a parameter. Where a value has to be given, the flag tells whether it also
has to be nonempty. -/
inductive ParameterUse where
  /-- Its value. -/
  | value
  /-- The length of its value in bytes. -/
  | length
  /-- The operand, unless there is a value. -/
  | orElse (nonempty : Bool)
  /-- The operand, which becomes the value, unless there is one. -/
  | orAssign (nonempty : Bool)
  /-- The end of the script, unless there is a value. -/
  | orFail (nonempty : Bool)
  /-- The operand if there is a value. -/
  | ifGiven (nonempty : Bool)
  /-- The value without what the operand matches at its start, as little or as much as possible. -/
  | withoutStart (longest : Bool)
  /-- The value without what the operand matches at its end. -/
  | withoutEnd (longest : Bool)
  deriving DecidableEq, Repr

/-- A piece of a word. -/
inductive WordPart where
  /-- Text outside quotes. -/
  | plain (t : Text)
  /-- Text whose characters stand for themselves. -/
  | quoted (t : Text)
  | parameter (name : Text) (use : ParameterUse) (operand : List WordPart) (quoted : Bool)
  /-- The output of a script. If that stands in the lines of the script around it, it is known how
  many newlines are behind it. -/
  | command (script : Text) (behind : Option Nat) (quoted : Bool)
  /-- The value of an arithmetic expression. -/
  | sum (operand : List WordPart) (quoted : Bool)
  deriving Repr

/-- A word of a script. -/
abbrev Word := List WordPart

/-- What a redirection does with its channel. -/
inductive RedirectKind where
  /-- The channel reads a file. -/
  | read
  /-- The channel writes a file from its start. -/
  | write
  /-- The same, and be it that the file must not be written over. -/
  | force
  /-- The channel reads and writes a file. -/
  | both
  /-- The channel writes on at the end of a file. -/
  | append
  /-- The channel becomes another one, named by number. -/
  | copy
  /-- The channel reads the word itself. -/
  | text
  deriving DecidableEq, Repr

/-- A redirection of a channel, which is given by its number. -/
structure Redirect where
  channel : Nat
  kind : RedirectKind
  target : Word
  deriving Repr

mutual

/-- A shell script. -/
inductive Script where
  /-- Nothing to do. -/
  | skip
  /-- Variables to set, the words of a command, and its redirections. -/
  | simple (behind : Nat) (assignments : List (Text × Word)) (words : List Word)
    (redirects : List Redirect)
  | redirected (behind : Nat) (body : Script) (redirects : List Redirect)
  /-- A script that leaves no trace in the shell. -/
  | apart (body : Script)
  /-- A script that nobody waits for. -/
  | beside (body : Script)
  | piped (first second : Script)
  | negated (body : Script)
  | andThen (first second : Script)
  | orElse (first second : Script)
  | next (first second : Script)
  | branch (condition yes no : Script)
  /-- The body as often as the condition succeeds, or as it fails. -/
  | loop (onSuccess : Bool) (condition body : Script)
  | each (behind : Nat) (name : Text) (words : List Word) (body : Script)
  | choose (behind : Nat) (subject : Word) (arms : Arms)
  /-- The name stands for the command from now on. -/
  | define (behind : Nat) (name : Text) (body : Script)
  deriving Repr

/-- What there is to choose from: patterns, and the script for them. -/
inductive Arms where
  | none
  | arm (patterns : List Word) (body : Script) (others : Arms)
  deriving Repr

end

end Fanout
