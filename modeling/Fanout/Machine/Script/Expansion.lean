import Fanout.Glob.Walk
import Fanout.Glob.Escape
import Fanout.Machine.Process
import Fanout.Machine.Script.Basic
import Fanout.Machine.Script.Wildcard

/-!
# What words stand for

When a command runs, the parts of its words are replaced by what they stand for. A value outside
quotes is parted at separators, so that one word can become many arguments or none; an argument with
unquoted wildcards becomes the names of the files it describes.

* `Atom`: a character of an argument, or a place where one ends.
* `arguments`: the arguments in a row of atoms.
* `Word.withHomes`: tildes replaced by home directories.
-/

namespace Fanout

/-- A piece of a word whose value is known. -/
inductive Atom where
  /-- A character. One that is quoted stands for itself, and only one that parts can end an
  argument. -/
  | char (c : Char) (quoted parts : Bool)
  /-- An argument ends here. It need not be there at all, unless the end is firm. -/
  | gap (firm : Bool)
  /-- There is an argument here, be it an empty one. -/
  | mark
  deriving DecidableEq, Repr

/-! ## Values -/

/-- The atoms of a value: outside quotes, its characters can part arguments. -/
def valueAtoms (quoted : Bool) (t : Text) : List Atom :=
  if quoted then .mark :: t.map (.char · true false) else t.map (.char · false true)

/-- The atoms of an operand that stands in for a value. -/
def operandAtoms (quoted : Bool) (atoms : List Atom) : List Atom :=
  if quoted then
    .mark :: atoms.map fun
      | .char c _ _ => .char c true false
      | a => a
  else atoms.map fun
    | .char c false _ => .char c false true
    | a => a

/-- The atoms of the parameters one by one. -/
def parameterAtoms (quoted : Bool) (ps : List Text) : List Atom :=
  (ps.flatMap fun p => valueAtoms quoted p ++ [.gap quoted]).dropLast

/-- The output of a script as a value: the newlines at its end do not count. -/
def outputValue (b : ByteArray) : Text :=
  let t := (Text.ofUtf8? b).getD (byteChars b)
  (t.reverse.dropWhile (· = '\n')).reverse

/-! ## Arguments -/

/-- The characters that part arguments unless a script chooses others. -/
def usualSeparators : Text := [' ', '\t', '\n']

/-- The separator is a blank: many of them count as one. -/
def isBlank (c : Char) : Bool := usualSeparators.contains c

/-- Characters of an argument, and whether each of them was quoted. -/
abbrev Argument := List (Char × Bool)

/-- The arguments in a row of atoms, when `current` is the one that is growing, if any, with its
last character first. Blanks do not begin an argument; other separators end one each, be it empty,
but the first of them behind blanks belongs to these when they are `open_`. -/
def argumentsFrom (separators : Text) (current : Option Argument) (open_ : Bool) :
    List Atom → List Argument
  | [] => (current.map List.reverse).toList
  | .mark :: rest => argumentsFrom separators (some (current.getD [])) false rest
  | .gap true :: rest => (current.getD []).reverse :: argumentsFrom separators none false rest
  | .gap false :: rest =>
    (current.map List.reverse).toList
      ++ argumentsFrom separators none (open_ || current.isSome) rest
  | .char c quoted parts :: rest =>
    if !parts || !separators.contains c then
      argumentsFrom separators (some ((c, quoted) :: current.getD [])) false rest
    else if isBlank c then
      (current.map List.reverse).toList
        ++ argumentsFrom separators none (open_ || current.isSome) rest
    else if current.isNone && open_ then argumentsFrom separators none false rest
    else (current.getD []).reverse :: argumentsFrom separators none false rest

/-- The arguments in a row of atoms. -/
def arguments (separators : Text) (atoms : List Atom) : List Argument :=
  argumentsFrom separators none false atoms

/-- The text of a row of atoms that is not parted. The joint stands between parameters. -/
def atomText (joint : Text) (atoms : List Atom) : Text :=
  atoms.flatMap fun
    | .char c _ _ => [c]
    | .gap _ => joint
    | .mark => []

/-- The characters of a row of atoms, and whether each of them was quoted. -/
def atomSigns (joint : Text) (atoms : List Atom) : List Wildcard.Sign :=
  atoms.flatMap fun
    | .char c quoted _ => [(c, quoted)]
    | .gap _ => joint.map (·, false)
    | .mark => []

/-! ## Home directories -/

/-- The home directory of a user, where the one of the user at work is given. -/
def homeOf? (home : Option Text) (user : Text) : Option Text :=
  if user.isEmpty then home
  else if user = "root".toList then some "/root".toList
  else none

/-- The parts of a text in which a tilde at the start stands for a home directory, and in a value
each tilde behind a colon, too. The text is all of the word, unless it is open. -/
def homeParts (home : Option Text) (inValue open_ : Bool) : Nat → Text → List WordPart
  | 0, t => [.plain t]
  | n + 1, t =>
    let piece := if inValue then t.takeWhile (· ≠ ':') else t
    let front : List WordPart := match piece with
      | '~' :: name =>
        let user := name.takeWhile (· ≠ '/')
        let isClosed := user.length < name.length || piece.length < t.length || !open_
        match if isClosed then homeOf? home user else none with
        | some h => [.quoted h, .plain (name.drop user.length)]
        | none => [.plain piece]
      | _ => [.plain piece]
    match t.drop piece.length with
    | colon :: rest => front ++ .plain [colon] :: homeParts home inValue open_ n rest
    | [] => front

/-- The word with home directories in the place of tildes. -/
def Word.withHomes (home : Option Text) (inValue : Bool) : Word → Word
  | .plain t :: rest =>
    if t.contains '~' then homeParts home inValue (!rest.isEmpty) (t.length + 1) t ++ rest
    else .plain t :: rest
  | w => w

/-! ## File names -/

/-- The argument has an unquoted wildcard. -/
def Argument.isPattern (a : Argument) : Bool :=
  a.any fun (c, quoted) => !quoted && (c = '*' || c = '?' || c = '[')

/-- The argument without its quotes. -/
def Argument.text (a : Argument) : Text := a.map Prod.fst

/-- The argument as a pattern, quoted characters standing for themselves. Many asterisks are as good
as one. -/
def Argument.pattern : Argument → Text
  | [] => []
  | (c, true) :: rest => Glob.escapeChar c ++ pattern rest
  | (c, false) :: rest =>
    if c = '*' && rest.head? = some ('*', false) then pattern rest else c :: pattern rest

/-- The path shows a hidden name only where the pattern spells its dot. -/
def showsHidden (pattern path : Text) : Bool :=
  (List.zip (Path.pieces pattern) (Path.pieces path)).any fun (p, n) =>
    n.head? = some '.' && p.head? ≠ some '.'

/-- The path without a leading dot piece that the pattern does not have, and with a slash at its end
when the pattern has one. -/
def plainPath (pattern path : Text) : Text :=
  let path := if (Text.after? ['.', '/'] pattern).isSome then path
    else (Text.after? ['.', '/'] path).getD path
  if pattern.getLast? = some '/' && path.getLast? ≠ some '/' then path ++ ['/'] else path

/-- What an argument with wildcards describes: the paths found, or itself when there are none. -/
def Argument.paths (t : FileTree) (a : Argument) : List Text :=
  if !a.isPattern then [a.text]
  else
    let found := match Glob.search t a.pattern with
      | .ok findings =>
        ((findings.filterMap Glob.Finding.path?).filter (!showsHidden a.pattern ·)).map
          (plainPath a.pattern)
      | .error _ => []
    if found.isEmpty then [a.text] else found.mergeSort Path.textLe

end Fanout
