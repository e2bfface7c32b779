import Fanout.Text.Basic

/-!
# Tokens of scripts

What a script is made of before its words mean anything: blanks, comments, operators and reserved
words, and what is wrong with a text that breaks the rules of the language.

* `keyword?`: the reserved word that stands at the start of a text.
* `tokenName`: what a complaint calls the token that stands there.
* `SyntaxFault`: what breaks the rules, and where.
-/

namespace Fanout

/-! ## Characters -/

/-- The character ends a word that is not quoted. -/
def endsWord (c : Char) : Bool :=
  [' ', '\t', '\n', ';', '&', '|', '<', '>', '(', ')'].contains c

/-- The character can begin a name. -/
def beginsName (c : Char) : Bool := c.isAlpha || c = '_'

/-- The character can stand in a name. -/
def inName (c : Char) : Bool := c.isAlphanum || c = '_'

/-- The parameters with a name of one sign. -/
def isSpecialParameter (c : Char) : Bool :=
  c.isDigit || ['?', '$', '#', '@', '*', '!', '-'].contains c

/-- The text without blanks, joined lines and comments at its start. -/
def skipBlanks : Text → Text
  | ' ' :: t | '\t' :: t | '\\' :: '\n' :: t => skipBlanks t
  | '#' :: t => t.dropWhile (· ≠ '\n')
  | t => t

/-- The text without blanks, comments and line ends at its start. -/
def skipLines (inComment : Bool) : Text → Text
  | '\n' :: t => skipLines false t
  | '\\' :: '\n' :: t => skipLines inComment t
  | c :: t =>
    if inComment || c = ' ' || c = '\t' then skipLines inComment t
    else if c = '#' then skipLines true t
    else c :: t
  | [] => []

/-! ## Faults -/

/-- The words with a meaning of their own at the start of a command. -/
def reservedWords : List String :=
  ["if", "then", "elif", "else", "fi", "while", "until", "do", "done", "for", "case", "esac",
    "\x7b", "\x7d", "!"]

/-- The reserved word at the start of a text, and what is behind it. -/
def keyword? (t : Text) : Option (String × Text) :=
  let w := t.takeWhile fun c => !endsWord c
  if reservedWords.contains (String.ofList w) then some (String.ofList w, t.drop w.length) else none

/-- The commands of the shell that no function can replace. -/
def specialCommands : List String :=
  [":", ".", "break", "continue", "eval", "exec", "exit", "export", "local", "readonly", "return",
   "set", "shift", "times", "trap", "unset"]

/-- The operators, longer ones before those they begin with. -/
def operators : List String := ["&&", "||", ";;", "&", "|", ";", "(", ")"]

/-- A text in double quotes. -/
def inDoubleQuotes (s : String) : String := "\"" ++ s ++ "\""

/-- The name of the token at the start of a text. -/
def tokenName (t : Text) : String :=
  match skipBlanks t with
  | [] => "end of file"
  | '\n' :: _ => "newline"
  | '<' :: _ | '>' :: _ => "redirection"
  | here =>
    match operators.find? fun o => o.toList.isPrefixOf here with
    | some o => inDoubleQuotes o
    | none =>
      match keyword? here with
      | some (w, _) => inDoubleQuotes w
      | none => "word"

/-- What breaks the rules of the language. -/
inductive SyntaxCause where
  | openQuote
  | openBackquote
  | badSubstitution
  /-- A brace that a parameter stands in is not closed. -/
  | openBrace
  | openSum
  | badLoopVariable
  | badFunctionName
  /-- A token where another one, perhaps a certain one, has to stand. -/
  | unexpected (found : String) (wanted : Option String)
  deriving DecidableEq, Repr

/-- A text that breaks the rules of the language. -/
structure SyntaxFault where
  cause : SyntaxCause
  /-- How many newlines are behind the place where that shows. -/
  behind : Nat
  deriving DecidableEq, Repr

namespace SyntaxFault

/-- The wording of the cause. -/
def message (f : SyntaxFault) : Text :=
  match f.cause with
  | .openQuote => "Unterminated quoted string".toList
  | .openBackquote => "EOF in backquote substitution".toList
  | .badSubstitution => "Bad substitution".toList
  | .openBrace => "Missing '\x7d'".toList
  | .openSum => "Missing '))'".toList
  | .badLoopVariable => "Bad for loop variable".toList
  | .badFunctionName => "Bad function name".toList
  | .unexpected found none => found.toList ++ " unexpected".toList
  | .unexpected found (some wanted) =>
    found.toList ++ " unexpected (expecting ".toList ++ wanted.toList ++ [')']

/-- The token at the start of the text does not belong there. -/
def unexpectedAt (t : Text) (wanted : Option String) : SyntaxFault :=
  let here := skipBlanks t
  ⟨.unexpected (tokenName t) wanted, here.tail.count '\n'⟩

/-- The text ends too early. -/
def atEnd : SyntaxFault := ⟨.unexpected (tokenName []) none, 0⟩

end SyntaxFault

end Fanout
