import Fanout.Machine.Script.Basic
import Fanout.Machine.Script.Token

/-!
# Reading the words of scripts

A word is a row of parts: text, quoted or not, and what dollar signs and backquotes introduce. Every
reader gives what it read and the text behind that, or tells how the text breaks the rules of the
language.

* `Enclosure`: what the parts stand between; it settles which characters have a meaning there.
* `readParts`: the parts up to the sign that ends them.
* `Word.read`: the next word.
-/

namespace Fanout

/-- The script between backquotes, and what is behind the closing one. -/
def readBackquoted (quoted : Bool) : Text → Except SyntaxFault (Text × Text)
  | [] => .error ⟨.openBackquote, 0⟩
  | '\x60' :: t => .ok ([], t)
  | '\\' :: c :: t => do
    let (more, rest) ← readBackquoted quoted t
    let isBare := c = '\x60' || c = '\\' || c = '$' || quoted && c = '"'
    .ok (if isBare then c :: more else '\\' :: c :: more, rest)
  | c :: t => do
    let (more, rest) ← readBackquoted quoted t
    .ok (c :: more, rest)

/-- The expression up to the two parentheses that close it, and what is behind them. -/
def readSum : Nat → Nat → Text → Except SyntaxFault (Text × Text)
  | 0, _, _ | _, _, [] => .error ⟨.openSum, 0⟩
  | n + 1, depth, c :: t => do
    match c, depth, t with
    | ')', 0, ')' :: rest => .ok ([], rest)
    | _, _, _ =>
      let depth := if c = '(' then depth + 1 else if c = ')' then depth - 1 else depth
      let (more, rest) ← readSum n depth t
      .ok (c :: more, rest)

/-- The name of a parameter at the start of a text, and what is behind it. -/
def readParameterName? (t : Text) : Option (Text × Text) :=
  match t with
  | [] => none
  | c :: rest =>
    if beginsName c then
      let name := t.takeWhile inName
      some (name, t.drop name.length)
    else if c.isDigit then
      let name := t.takeWhile Char.isDigit
      some (name, t.drop name.length)
    else if isSpecialParameter c then some ([c], rest)
    else none

/-- What is wanted of a parameter, behind its name; with nothing wanted but its value, the text
goes on with the closing brace. -/
def readUse? : Text → Option (ParameterUse × Text)
  | ':' :: c :: t => (given c true).map (·, t)
  | '#' :: '#' :: t => some (.withoutStart true, t)
  | '#' :: t => some (.withoutStart false, t)
  | '%' :: '%' :: t => some (.withoutEnd true, t)
  | '%' :: t => some (.withoutEnd false, t)
  | '\x7d' :: t => some (.value, '\x7d' :: t)
  | c :: t => (given c false).map (·, t)
  | [] => none
where
  given (c : Char) (nonempty : Bool) : Option ParameterUse :=
    if c = '-' then some (.orElse nonempty)
    else if c = '=' then some (.orAssign nonempty)
    else if c = '?' then some (.orFail nonempty)
    else if c = '+' then some (.ifGiven nonempty)
    else none

/-- What the parts of a word stand between. -/
inductive Enclosure where
  /-- Nothing: a blank or an operator ends them. -/
  | bare
  | doubleQuotes
  /-- A brace, itself inside double quotes or not. -/
  | brace (quoted : Bool)
  /-- The start and the end of a text that commands read. -/
  | document
  deriving DecidableEq, Repr

namespace Enclosure

/-- Blanks and quotes stand for themselves. -/
def isQuoted : Enclosure → Bool
  | .bare => false
  | .doubleQuotes | .document => true
  | .brace quoted => quoted

/-- The character ends the parts. -/
def endsAt (e : Enclosure) (c : Char) : Bool :=
  match e with
  | .bare => endsWord c
  | .doubleQuotes => c = '"'
  | .brace _ => c = '\x7d'
  | .document => false

/-- The character has a meaning other than itself. -/
def isSpecial (e : Enclosure) (c : Char) : Bool :=
  e.endsAt c || ['$', '\x60', '\\'].contains c || (e ≠ .document && c = '"')
    || (!e.isQuoted && c = '\'')

/-- Text that stands for itself. -/
def text (e : Enclosure) (t : Text) : WordPart := if e.isQuoted then .quoted t else .plain t

/-- A backslash in front of the character takes away its meaning. -/
def isEscapable (e : Enclosure) (c : Char) : Bool :=
  !e.isQuoted || ['$', '\x60', '\\'].contains c || (e ≠ .document && c = '"')
    || (e = .brace true && c = '\x7d')

/-- The parts at the end of the text, if they may end there. -/
def atEnd : Enclosure → Except SyntaxFault (Word × Text)
  | .bare | .document => .ok ([], [])
  | .doubleQuotes => .error ⟨.openQuote, 0⟩
  | .brace _ => .error ⟨.openBrace, 0⟩

end Enclosure

/-- Reads a script that stands in a word, as far as it goes. If it is enclosed, that is up to the
parenthesis that closes it, and the text behind that is given. -/
abbrev ScriptSkipper := Bool → Text → Except SyntaxFault Text

section

variable (skipScript : ScriptSkipper)

mutual

/-- What a dollar sign introduces. A dollar sign that introduces nothing stands for itself. -/
def readDollar : Nat → Bool → Text → Except SyntaxFault (WordPart × Text)
  | 0, _, _ => .error .atEnd
  | n + 1, quoted, t =>
    match t with
    | '(' :: '(' :: rest => do
      let (expression, rest) ← readSum (rest.length + 1) 0 rest
      let (operand, _) ← readParts n .document (expression.filter (· ≠ '"'))
      .ok (.sum operand quoted, rest)
    | '(' :: t => do
      let rest ← skipScript true t
      .ok (.command (t.take (t.length - rest.length - 1)) (some (rest.count '\n')) quoted, rest)
    | '\x7b' :: rest => readBraced n quoted rest
    | c :: rest =>
      if beginsName c then
        let name := t.takeWhile inName
        .ok (.parameter name .value [] quoted, t.drop name.length)
      else if isSpecialParameter c then .ok (.parameter [c] .value [] quoted, rest)
      else .ok (.quoted ['$'], t)
    | [] => .ok (.quoted ['$'], [])

/-- What a dollar sign with a brace introduces. -/
def readBraced : Nat → Bool → Text → Except SyntaxFault (WordPart × Text)
  | 0, _, _ => .error .atEnd
  | n + 1, quoted, t => do
    let bad : SyntaxFault :=
      match t.dropWhile (· ≠ '\x7d') with
      | _ :: behind => ⟨.badSubstitution, behind.count '\n'⟩
      | [] => ⟨.openBrace, 0⟩
    match t with
    | '#' :: c :: more =>
      match readParameterName? (c :: more) with
      | some (name, '\x7d' :: rest) => return (.parameter name .length [] quoted, rest)
      | _ => pure ()
    | _ => pure ()
    match readParameterName? t with
    | none => .error bad
    | some (name, behind) =>
      match readUse? behind with
      | none => .error (if behind.isEmpty then ⟨.openBrace, 0⟩ else bad)
      | some (use, rest) =>
        let (operand, rest) ← readParts n (.brace quoted) rest
        .ok (.parameter name use operand quoted, rest)

/-- The parts of a word from its first character on, and what is behind them and the sign that
ends them. -/
def readParts : Nat → Enclosure → Text → Except SyntaxFault (Word × Text)
  | 0, _, _ => .error .atEnd
  | _, e, [] => e.atEnd
  | n + 1, e, c :: t => do
    let keep (parts : Word) (rest : Text) : Except SyntaxFault (Word × Text) := do
      let (more, rest) ← readParts n e rest
      .ok (parts ++ more, rest)
    if e.endsAt c then .ok ([], if e = .bare then c :: t else t)
    else if c = '\'' && !e.isQuoted then
      let body := t.takeWhile (· ≠ '\'')
      match t.drop body.length with
      | _ :: rest => keep [.quoted body] rest
      | [] => .error ⟨.openQuote, 0⟩
    else if c = '"' && e ≠ .document then
      let (parts, rest) ← readParts n .doubleQuotes t
      keep (.quoted [] :: parts) rest
    else if c = '$' then
      let (part, rest) ← readDollar n e.isQuoted t
      keep [part] rest
    else if c = '\x60' then
      let (script, rest) ← readBackquoted (e = .doubleQuotes) t
      let _ ← skipScript false script
      keep [.command script none e.isQuoted] rest
    else if c = '\\' then
      match t with
      | '\n' :: rest => keep [] rest
      | d :: rest => keep [.quoted (if e.isEscapable d then [d] else ['\\', d])] rest
      | [] =>
        if e = .bare || e = .document then .ok ([.quoted ['\\']], []) else e.atEnd
    else
      let run := t.takeWhile fun d => !e.isSpecial d
      keep [e.text (c :: run)] (t.drop run.length)

end

end

/-- Enough steps to read a text: no reader calls itself more often without moving on. -/
def readingSteps (t : Text) : Nat := 8 * t.length + 16

namespace Word

/-- The word at the start of a text; there is none where the text ends or an operator stands. -/
def read (skipScript : ScriptSkipper) (n : Nat) (t : Text) :
    Except SyntaxFault (Option Word × Text) :=
  match t with
  | [] => .ok (none, [])
  | c :: _ =>
    if endsWord c then .ok (none, t)
    else do
      let (w, rest) ← readParts skipScript n .bare t
      .ok (some w, rest)

/-- The variable that a word sets, and its value. -/
def assignment? : Word → Option (Text × Word)
  | .plain t :: rest =>
    let name := t.takeWhile inName
    match t.drop name.length with
    | '=' :: value => if name.head?.any beginsName then some (name, .plain value :: rest) else none
    | _ => none
  | _ => none

end Word

end Fanout
