import Fanout.Machine.Script.Word
import Fanout.Text.Numeral

/-!
# Reading the commands of scripts

A script is read one line at a time, where a line goes on as long as a command on it is not
complete. Every reader gives what it read and the text behind that, or tells how the text breaks
the rules of the language.

* `Script.readCommand`: one command.
* `Script.readLine`: the commands of the next line.
-/

namespace Fanout

namespace Script

/-- What is behind a reserved word that has to stand here. -/
def expect (word : String) (t : Text) : Except SyntaxFault Text :=
  match keyword? (skipBlanks t) with
  | some (w, rest) =>
    if w = word then .ok rest else .error (.unexpectedAt t (some (inDoubleQuotes word)))
  | none => .error (.unexpectedAt t (some (inDoubleQuotes word)))

/-- What is behind a word, if the text begins with it. -/
def afterWord? (word : String) (t : Text) : Option Text :=
  let here := t.takeWhile fun c => !endsWord c
  if here = word.toList then some (t.drop here.length) else none

/-- The lines of a text up to the one that ends it, and what is behind that. -/
def takeDocument (stripped : Bool) (ending : Text) : List Text → List Text × List Text
  | [] => ([], [])
  | l :: ls =>
    let l := if stripped then l.dropWhile (· = '\t') else l
    if l = ending then ([], ls)
    else
      let (document, rest) := takeDocument stripped ending ls
      (l :: document, rest)

section

variable (skipScript : ScriptSkipper)

/-- A text for a command to read, behind the sign for it. The text stands on the next lines and
ends with a line that is given here; it is read as it stands when that is quoted. -/
def readDocument (n : Nat) (channel : Nat) (t : Text) : Except SyntaxFault (Redirect × Text) := do
  let stripped := t.head? = some '-'
  match ← Word.read skipScript n (skipBlanks (if stripped then t.tail else t)) with
  | (none, rest) => .error (.unexpectedAt rest none)
  | (some w, rest) =>
    let ending := w.flatMap fun
      | .plain t | .quoted t => t
      | _ => []
    let isPlain := w.all fun
      | .plain _ => true
      | _ => false
    let line := rest.takeWhile (· ≠ '\n')
    let (document, behind) := takeDocument stripped ending
      ((rest.drop (line.length + 1)).splitOn '\n')
    let body := document.flatMap (· ++ ['\n'])
    let rest := line ++ '\n' :: Text.join ['\n'] behind
    if isPlain then
      let (parts, _) ← readParts skipScript n .document body
      .ok (⟨channel, .text, .quoted [] :: parts⟩, rest)
    else .ok (⟨channel, .text, [.quoted body]⟩, rest)

/-- The redirection at the start of a text. -/
def readRedirect (n : Nat) (t : Text) : Except SyntaxFault (Option Redirect × Text) := do
  let digits := (t.take 1).takeWhile Char.isDigit
  if let some rest := Text.after? ['<', '<'] (t.drop digits.length) then
    let (r, rest) ← readDocument skipScript n (if digits.isEmpty then 0 else Text.value digits) rest
    return (some r, rest)
  let operator : Option (RedirectKind × Nat × Text) := match t.drop digits.length with
    | '>' :: '>' :: rest => some (.append, 1, rest)
    | '>' :: '&' :: rest => some (.copy, 1, rest)
    | '>' :: '|' :: rest => some (.force, 1, rest)
    | '>' :: rest => some (.write, 1, rest)
    | '<' :: '&' :: rest => some (.copy, 0, rest)
    | '<' :: '>' :: rest => some (.both, 0, rest)
    | '<' :: rest => some (.read, 0, rest)
    | _ => none
  match operator with
  | none => .ok (none, t)
  | some (kind, channel, rest) =>
    match ← Word.read skipScript n (skipBlanks rest) with
    | (some w, rest) =>
      .ok (some ⟨if digits.isEmpty then channel else Text.value digits, kind, w⟩, rest)
    | (none, rest) => .error (.unexpectedAt rest none)

/-- Redirections one after another. -/
def readRedirects : Nat → Text → Except SyntaxFault (List Redirect × Text)
  | 0, _ => .error .atEnd
  | n + 1, t => do
    match ← readRedirect skipScript n (skipBlanks t) with
    | (some r, rest) =>
      let (more, rest) ← readRedirects n rest
      .ok (r :: more, rest)
    | (none, rest) => .ok ([], rest)

end

/-- The script with its redirections. -/
def withRedirects (behind : Nat) (body : Script) (rs : List Redirect) : Script :=
  if rs.isEmpty then body else .redirected behind body rs

/-- Words, variables and redirections of one command, each with the last one first. -/
structure Simple where
  assignments : List (Text × Word) := []
  words : List Word := []
  redirects : List Redirect := []
  /-- The number of newlines behind the first word. -/
  behind : Option Nat := none

/-! ### Other names of commands -/

/-- Names that stand for other texts where a command begins. -/
abbrev Aliases := List (Text × Text)

/-- The text with a backslash in front of each word that is one of the names, so that it stands for
itself. -/
def shieldNames (names : List Text) (betweenWords : Bool) : Text → Text
  | [] => []
  | c :: t =>
    if endsWord c then c :: shieldNames names true t
    else
      let word := (c :: t).takeWhile fun d => !endsWord d
      (if betweenWords && names.contains word then ['\\'] else [])
        ++ c :: shieldNames names false t

/-- The text with the other name at its start replaced. A name is replaced once; behind a
replacement that ends in a blank the next word is looked at, too. -/
def replaceAlias (aliases : Aliases) : Nat → List Text → Text → Text
  | 0, _, t => t
  | n + 1, used, t =>
    let here := skipBlanks t
    let word := here.takeWhile fun c => !(Enclosure.bare.isSpecial c)
    let rest := here.drop word.length
    let isWhole := match rest with
      | [] => true
      | c :: _ => endsWord c
    match if isWhole then aliases.lookup word else none with
    | none => t
    | some value =>
      let used := word :: used
      let rest := if value.getLast?.any fun c => c = ' ' || c = '\t' then
          replaceAlias aliases n [] rest
        else rest
      if (keyword? (skipBlanks value)).isSome then shieldNames used true value ++ rest
      else replaceAlias aliases n used (shieldNames used true value ++ rest)

section

variable (aliases : Aliases)

section

variable (skipScript : ScriptSkipper)

/-- The rest of a simple command. -/
def readSimple : Nat → Simple → Text → Except SyntaxFault (Simple × Text)
  | 0, _, _ => .error .atEnd
  | n + 1, s, t => do
    match ← readRedirect skipScript n (skipBlanks t) with
    | (some r, rest) => readSimple n { s with redirects := r :: s.redirects } rest
    | (none, here) =>
      let here := if s.words.isEmpty then replaceAlias aliases n [] here else here
      match ← Word.read skipScript (n + 1) here with
      | (none, rest) => .ok (s, rest)
      | (some w, rest) =>
        let s := if s.behind.isNone then { s with behind := some (rest.count '\n') } else s
        match if s.words.isEmpty then w.assignment? else none with
        | some a => readSimple n { s with assignments := a :: s.assignments } rest
        | none => readSimple n { s with words := w :: s.words } rest

/-- The command that a simple one is, where so many newlines are behind its beginning. Its line is
that of the end of its first word. -/
def Simple.toScript (s : Simple) (behind : Nat) : Script :=
  .simple (s.behind.getD behind) s.assignments.reverse s.words.reverse s.redirects.reverse

/-- Words up to the end of the line. -/
def readWords : Nat → Text → Except SyntaxFault (List Word × Text)
  | 0, _ => .error .atEnd
  | n + 1, t => do
    match ← Word.read skipScript (n + 1) (skipBlanks t) with
    | (some w, rest) =>
      let (more, rest) ← readWords n rest
      .ok (w :: more, rest)
    | (none, rest) => .ok ([], rest)

end

/-- A separator of a list. -/
inductive Separator where
  /-- The command in front is waited for. -/
  | waiting
  /-- The command in front runs beside what follows. -/
  | besides
  deriving DecidableEq, Repr

/-- The separator that stands here, and what is behind it. -/
def separator? (t : Text) : Option (Separator × Text) :=
  match skipBlanks t with
  | ';' :: ';' :: _ => none
  | ';' :: rest => some (.waiting, rest)
  | '&' :: '&' :: _ => none
  | '&' :: rest => some (.besides, rest)
  | '\n' :: rest => some (.waiting, rest)
  | _ => none

/-- The command in front of a separator. -/
def Separator.join (s : Separator) (body : Script) : Script :=
  match s with
  | .waiting => body
  | .besides => .beside body

/-- The function name at the start of a text and what is behind the parentheses that follow it; an
opening one has to be closed at once. -/
def definition? (t : Text) : Except SyntaxFault (Option (Text × Text)) :=
  let name := t.takeWhile fun c => !(Enclosure.bare.isSpecial c || c = '=')
  match skipBlanks (t.drop name.length) with
  | '(' :: rest =>
    if name.isEmpty then .ok none
    else match skipBlanks rest with
      | ')' :: behind =>
        let isFree := !specialCommands.contains (String.ofList name)
        if name.head?.any beginsName && name.all inName && isFree then .ok (some (name, behind))
        else .error ⟨.badFunctionName, behind.count '\n'⟩
      | _ => .error (.unexpectedAt rest (some (inDoubleQuotes ")")))
  | _ => .ok none

/-- The words that end a list of commands. -/
def endingWords : List String := ["then", "elif", "else", "fi", "do", "done", "esac", "\x7d"]

/-- A list of commands ends here. -/
def endsList (t : Text) : Bool :=
  match keyword? t with
  | some (w, _) => endingWords.contains w
  | none => t.head? = some ')' || t.isEmpty || (Text.after? [';', ';'] t).isSome

mutual

/-- A script in a word, as far as it goes, and behind the parenthesis that closes it if it is
enclosed. -/
def skipScript : Nat → ScriptSkipper
  | 0, _, _ => .error .atEnd
  | n + 1, enclosed, t => do
    let here := skipLines false t
    let rest ← if endsList here then pure here else (readList n here).map Prod.snd
    if enclosed then
      match skipBlanks rest with
      | ')' :: rest => .ok rest
      | _ => .error (.unexpectedAt rest (some (inDoubleQuotes ")")))
    else .ok rest

/-- One command. -/
def readCommand : Nat → Text → Except SyntaxFault (Script × Text)
  | 0, _ => .error .atEnd
  | n + 1, t => do
    let here := skipBlanks (if (keyword? (skipBlanks t)).isSome then t
      else replaceAlias aliases n [] t)
    match here with
    | '(' :: rest =>
      let (body, rest) ← readList n rest
      match skipBlanks rest with
      | ')' :: rest =>
        let (rs, rest) ← readRedirects (skipScript n) n rest
        .ok (withRedirects (here.count '\n') (.apart body) rs, rest)
      | _ => .error (.unexpectedAt rest (some (inDoubleQuotes ")")))
    | _ =>
      match keyword? here with
      | some (word, rest) =>
        let (body, rest) ← readCompound n word rest
        let (rs, rest) ← readRedirects (skipScript n) n rest
        .ok (withRedirects (here.count '\n') body rs, rest)
      | none =>
        if let some (name, behind) ← definition? here then
          let (body, rest) ← readCommand n (skipLines false behind)
          return (.define (here.count '\n') name body, rest)
        let (s, rest) ← readSimple aliases (skipScript n) n {} here
        if s.words.isEmpty && s.assignments.isEmpty && s.redirects.isEmpty then
          .error (.unexpectedAt here none)
        else .ok (s.toScript (here.count '\n'), rest)

/-- A compound command behind the reserved word it begins with. -/
def readCompound : Nat → String → Text → Except SyntaxFault (Script × Text)
  | 0, _, _ => .error .atEnd
  | n + 1, word, t =>
    match word with
    | "\x7b" => do
      let (body, rest) ← readList n t
      .ok (body, ← expect "\x7d" rest)
    | "if" => readBranch n t
    | "while" => readLoop n true t
    | "until" => readLoop n false t
    | "for" => do
      let here := skipBlanks t
      let name := here.takeWhile fun c => !endsWord c
      let behind := here.drop name.length
      if !name.head?.any beginsName || !name.all inName then
        throw ⟨.badLoopVariable, behind.count '\n'⟩
      let next := skipLines false behind
      let (words, rest) ← match afterWord? "in" next with
        | some rest => do
          let (words, rest) ← readWords (skipScript n) n rest
          match skipBlanks rest with
          | ';' :: ';' :: _ => .error (.unexpectedAt rest none)
          | ';' :: rest | '\n' :: rest => .ok (words, rest)
          | _ => .error (.unexpectedAt rest none)
        | none => .ok ([[.parameter ['@'] .value [] true]], match next with
          | ';' :: rest => rest
          | _ => next)
      let rest ← expect "do" (skipLines false rest)
      let (body, rest) ← readList n rest
      .ok (.each (t.count '\n') name words body, ← expect "done" rest)
    | "case" => do
      match ← Word.read (skipScript n) n (skipBlanks t) with
      | (none, rest) => .error (.unexpectedAt rest (some "word"))
      | (some subject, rest) =>
        let rest := skipLines false rest
        match afterWord? "in" rest with
        | none => .error (.unexpectedAt rest (some (inDoubleQuotes "in")))
        | some rest =>
          let (arms, rest) ← readArms n rest
          .ok (.choose (t.count '\n') subject arms, rest)
    | word => .error (.unexpectedAt (word.toList ++ t) none)

/-- The arms of a choice up to its end. -/
def readArms : Nat → Text → Except SyntaxFault (Arms × Text)
  | 0, _ => .error .atEnd
  | n + 1, t => do
    let here := skipLines false t
    match keyword? here with
    | some ("esac", rest) => .ok (.none, rest)
    | _ =>
      let (patterns, rest) ← readPatterns n (match here with
        | '(' :: rest => rest
        | _ => here)
      let (body, rest) ← match keyword? (skipLines false rest) with
        | some ("esac", _) => pure (Script.skip, skipLines false rest)
        | _ => if (Text.after? [';', ';'] (skipLines false rest)).isSome
          then pure (Script.skip, skipLines false rest) else readList n rest
      let behind := skipLines false rest
      match Text.after? [';', ';'] behind with
      | some rest =>
        let (others, rest) ← readArms n rest
        .ok (.arm patterns body others, rest)
      | none =>
        match keyword? behind with
        | some ("esac", rest) => .ok (.arm patterns body .none, rest)
        | _ => .error (.unexpectedAt behind (some (inDoubleQuotes ";;")))

/-- The patterns of an arm up to the closing parenthesis. -/
def readPatterns : Nat → Text → Except SyntaxFault (List Word × Text)
  | 0, _ => .error .atEnd
  | n + 1, t => do
    match ← Word.read (skipScript n) n (skipBlanks t) with
    | (none, rest) => .error (.unexpectedAt rest none)
    | (some w, rest) =>
      match skipBlanks rest with
      | '|' :: rest =>
        let (more, rest) ← readPatterns n rest
        .ok (w :: more, rest)
      | ')' :: rest => .ok ([w], rest)
      | rest => .error (.unexpectedAt rest (some (inDoubleQuotes ")")))

/-- A branch behind the word that begins its condition. -/
def readBranch : Nat → Text → Except SyntaxFault (Script × Text)
  | 0, _ => .error .atEnd
  | n + 1, t => do
    let (condition, rest) ← readList n t
    let (yes, rest) ← readList n (← expect "then" rest)
    match keyword? (skipBlanks rest) with
    | some ("elif", rest) =>
      let (no, rest) ← readBranch n rest
      .ok (.branch condition yes no, rest)
    | some ("else", rest) =>
      let (no, rest) ← readList n rest
      .ok (.branch condition yes no, ← expect "fi" rest)
    | _ => .ok (.branch condition yes .skip, ← expect "fi" rest)

/-- A loop behind the word that begins its condition. -/
def readLoop : Nat → Bool → Text → Except SyntaxFault (Script × Text)
  | 0, _, _ => .error .atEnd
  | n + 1, onSuccess, t => do
    let (condition, rest) ← readList n t
    let (body, rest) ← readList n (← expect "do" rest)
    .ok (.loop onSuccess condition body, ← expect "done" rest)

/-- Commands with pipes between them. -/
def readPipes : Nat → Text → Except SyntaxFault (Script × Text)
  | 0, _ => .error .atEnd
  | n + 1, t => do
    let (first, rest) ← readCommand n t
    match skipBlanks rest with
    | '|' :: '|' :: more => .ok (first, '|' :: '|' :: more)
    | '|' :: more =>
      let (second, rest) ← readPipes n (skipLines false more)
      .ok (.piped first second, rest)
    | rest => .ok (first, rest)

/-- A pipeline, which may be negated. -/
def readPipeline : Nat → Text → Except SyntaxFault (Script × Text)
  | 0, _ => .error .atEnd
  | n + 1, t =>
    match keyword? (skipBlanks t) with
    | some ("!", rest) => do
      let (body, rest) ← readPipes n rest
      .ok (.negated body, rest)
    | _ => readPipes n t

/-- Pipelines behind `first`, each joined to what is before it. -/
def readJoined : Nat → Script → Text → Except SyntaxFault (Script × Text)
  | 0, _, _ => .error .atEnd
  | n + 1, first, t =>
    match skipBlanks t with
    | '&' :: '&' :: more => do
      let (second, rest) ← readPipeline n (skipLines false more)
      readJoined n (.andThen first second) rest
    | '|' :: '|' :: more => do
      let (second, rest) ← readPipeline n (skipLines false more)
      readJoined n (.orElse first second) rest
    | rest => .ok (first, rest)

/-- Commands up to the end of the enclosing one; there are none where the text ends. -/
def readList : Nat → Text → Except SyntaxFault (Script × Text)
  | 0, _ => .error .atEnd
  | n + 1, t => do
    let here := skipLines false t
    if here.isEmpty then return (.skip, [])
    let (pipeline, rest) ← readPipeline n here
    let (first, rest) ← readJoined n pipeline rest
    match separator? rest with
    | none => .ok (first, rest)
    | some (separator, behind) =>
      let behind := skipLines false behind
      let first := separator.join first
      if endsList behind then .ok (first, behind)
      else
        let (more, rest) ← readList n behind
        .ok (.next first more, rest)

end

end

/-- The commands from here to the end of the line. -/
def readLineFrom (aliases : Aliases) (steps : Nat) : Nat → Text → Except SyntaxFault (Script × Text)
  | 0, _ => .error .atEnd
  | n + 1, t => do
    let (pipeline, rest) ← readPipeline aliases steps t
    let (first, rest) ← readJoined aliases steps pipeline rest
    match skipBlanks rest with
    | [] => .ok (first, [])
    | '\n' :: rest => .ok (first, rest)
    | rest =>
      match separator? rest with
      | none => .error (.unexpectedAt rest none)
      | some (separator, behind) =>
        let first := separator.join first
        match skipBlanks behind with
        | [] => .ok (first, [])
        | '\n' :: rest => .ok (first, rest)
        | behind =>
          let (more, rest) ← readLineFrom aliases steps n behind
          .ok (.next first more, rest)

/-- The commands of the next line that has any. -/
def readLine (aliases : Aliases) (t : Text) : Except SyntaxFault (Script × Text) :=
  match skipLines false t with
  | [] => .ok (.skip, [])
  | here => readLineFrom aliases (readingSteps here) (here.length + 1) here

end Script

end Fanout
