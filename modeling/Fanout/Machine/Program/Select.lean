import Fanout.Machine.Expression
import Fanout.Machine.Program.Operands

/-!
# Selecting lines

Writes the lines of its operands that match one of its patterns, or those that match none. It can
also count them, number them, show only the parts that match or the lines around them, or merely
tell whether there are any. Of a file that is no text it only says that it matches.
-/

namespace Fanout

namespace Program

/-- Both characters are the same letter, or the same character. -/
def sameFolded (c d : Char) : Bool := c.toLower = d.toLower

/-- A request to select lines. -/
structure Selection where
  request : Request
  patterns : List Expression
  /-- No more lines than this are selected. -/
  most : Option Nat
  /-- How many lines are shown in front of a selected one. -/
  before : Nat
  /-- How many lines are shown behind a selected one. -/
  after : Nat

namespace Selection

/-- The option is given. -/
def asks (s : Selection) (c : Char) : Bool := s.request.asks c

/-- A match may begin behind the character `prev` and leave `rest`. -/
def fits (s : Selection) (p q : Expression.Place) : Bool :=
  if s.asks 'x' then p.atStart && q.rest.isEmpty
  else if s.asks 'w' then
    !p.behind.any Expression.isWordChar && !q.rest.head?.any Expression.isWordChar
  else true

/-- The longest match that begins at a place, by its length. -/
def longest? (s : Selection) (p : Expression.Place) : Option Nat :=
  let same := if s.asks 'i' || s.asks 'y' then sameFolded else fun c d => c = d
  ((s.patterns.flatMap fun e => e.ends same p).filter (s.fits p)).map
    (fun q => p.rest.length - q.rest.length) |>.max?

/-- The line has a match from the place on. -/
def matchesFrom (s : Selection) (prev : Option Char) : Text → Bool
  | [] => (s.longest? ⟨prev, []⟩).isSome
  | c :: t => (s.longest? ⟨prev, c :: t⟩).isSome || s.matchesFrom (some c) t

/-- The line is selected. -/
def selects (s : Selection) (line : Text) : Bool := s.matchesFrom none line != s.asks 'v'

/-- The matching parts of a line from left to right, with their offsets. -/
def parts (s : Selection) : Nat → Nat → Option Char → Text → List (Nat × Text)
  | 0, _, _, _ | _, _, _, [] => []
  | n + 1, offset, prev, c :: t =>
    match s.longest? ⟨prev, c :: t⟩ with
    | some (k + 1) =>
      let part := (c :: t).take (k + 1)
      (offset, part)
        :: s.parts n (offset + Text.byteLength part) part.getLast? ((c :: t).drop (k + 1))
    | _ => s.parts n (offset + c.utf8Size) (some c) t

/-- A line with its number and its offset, and whether it is selected. -/
structure Line where
  number : Nat
  offset : Nat
  text : Text
  isSelected : Bool

/-- The lines from a number and an offset on. No more than `left` of them are selected. -/
def lines (s : Selection) (number offset : Nat) (left : Option Nat) : List Text → List Line
  | [] => []
  | l :: ls =>
    let isSelected := left ≠ some 0 && s.selects l
    let left := if isSelected then left.map (· - 1) else left
    ⟨number, offset, l, isSelected⟩
      :: s.lines (number + 1) (offset + Text.byteLength l + 1) left ls

/-- The line is shown: it is near enough to a selected one. -/
def isNear (s : Selection) (selected : List Nat) (l : Line) : Bool :=
  selected.any fun k => k ≤ l.number + s.before && l.number ≤ k + s.after

/-- One line as it is shown. -/
def showLine (s : Selection) (front : Text) (l : Line) : Text :=
  let mark := if l.isSelected then ':' else '-'
  let label := if front.isEmpty then [] else front ++ [mark]
  let number := if s.asks 'n' then Text.numeral l.number ++ [mark] else []
  let offset (k : Nat) : Text := if s.asks 'b' then Text.numeral k ++ [mark] else []
  if s.asks 'o' then
    if s.asks 'v' || !l.isSelected then []
    else (s.parts l.text.length l.offset none l.text).flatMap fun (k, part) =>
      label ++ number ++ offset k ++ part ++ ['\n']
  else label ++ number ++ offset l.offset ++ l.text ++ ['\n']

/-- Lines as they are shown, with a mark where some are left out. -/
def showLines (s : Selection) (front : Text) (previous : Option Nat) : List Line → Text
  | [] => []
  | l :: ls =>
    let isGap := previous.any (· + 1 < l.number) && (s.before ≠ 0 || s.after ≠ 0)
    (if isGap then ['-', '-', '\n'] else []) ++ s.showLine front l
      ++ s.showLines front (some l.number) ls

/-- What is shown for the content of one operand. -/
def shown (s : Selection) (labelled isText : Bool) (name : Text) (ls : List Line) : Text :=
  let front := if labelled then name else []
  let selected := (ls.filter Line.isSelected).map Line.number
  if s.asks 'q' then []
  else if s.asks 'L' then if selected.isEmpty then name ++ ['\n'] else []
  else if s.asks 'l' then if selected.isEmpty then [] else name ++ ['\n']
  else if s.asks 'c' then
    (if labelled then name ++ [':'] else []) ++ Text.numeral selected.length ++ ['\n']
  else if !isText then []
  else s.showLines front none (ls.filter (s.isNear selected))

/-- There is nothing but a word on whether there are selected lines, or how many. -/
def isBrief (s : Selection) : Bool := ['q', 'L', 'l', 'c'].any s.asks

end Selection

/-- The options. -/
def selectOptions : OptionTable where
  letters := ['c', 'v', 'i', 'y', 'n', 'q', 's', 'x', 'w', 'o', 'F', 'E', 'G', 'h', 'H', 'a', 'l',
    'L', 'b']
  valued := ['e', 'm', 'A', 'B', 'C', 'f']
  names := [("count", 'c'), ("invert-match", 'v'), ("ignore-case", 'i'), ("line-number", 'n'),
    ("quiet", 'q'), ("silent", 'q'), ("no-messages", 's'), ("line-regexp", 'x'),
    ("word-regexp", 'w'), ("only-matching", 'o'), ("fixed-strings", 'F'),
    ("extended-regexp", 'E'), ("basic-regexp", 'G'), ("no-filename", 'h'), ("with-filename", 'H'),
    ("text", 'a'), ("files-with-matches", 'l'), ("files-without-match", 'L'),
    ("byte-offset", 'b'), ("regexp", 'e'), ("max-count", 'm'), ("after-context", 'A'),
    ("before-context", 'B'), ("context", 'C'), ("file", 'f')]

/-- The expressions of patterns, one for each line. -/
def readExpressions (r : Request) (patterns : List Text) :
    Except Expression.Fault (List Expression) :=
  (patterns.flatMap fun p => p.splitOn '\n').mapM fun line =>
    if r.asks 'F' then .ok (.ofText line)
    else Expression.read (if r.asks 'E' then .extended else .basic) line

/-- The way to call the program. -/
def selectUsage : Text := "Usage: grep [OPTION]... PATTERNS [FILE]...".toList

/-- The name of an operand in front of its lines. -/
def selectLabel (name : Text) : Text :=
  if name = ['-'] then "(standard input)".toList else name

/-- The lines of what was read, as characters. Bytes that are no text stand for characters each. -/
def selectContent (s : Source) : Text := (Text.ofUtf8? s.bytes).getD (byteChars s.bytes)

/-- The content can be shown. -/
def isShowable (s : Source) : Bool :=
  match Text.ofUtf8? s.bytes with
  | some t => !t.contains '\x00'
  | none => false

/-- The lines of a file of patterns. -/
def patternsOfFile (p : Process) (name : Text) : Except IoFault (List Text) :=
  (p.readOperand name).1.map fun b => byteLines ((Text.ofUtf8? b).getD (byteChars b))

/-- The number of lines that an option gives, or what is wrong with it. -/
def contextOf (r : Request) (c : Char) : Except Text (Option Nat) :=
  match (r.values c).getLast? with
  | none => .ok none
  | some t =>
    if Text.isDigits t then .ok (some (Text.value t))
    else if c = 'm' then .error "invalid max count".toList
    else .error (t ++ ": invalid context length argument".toList)

/-- The request with its patterns read, or what is wrong with it. -/
def readSelection (r : Request) (patterns : List Text) : Except Text Selection := do
  let around := (← contextOf r 'C').getD 0
  let after := (← contextOf r 'A').getD around
  let before := (← contextOf r 'B').getD around
  let most ← contextOf r 'm'
  match readExpressions r patterns with
  | .ok expressions => .ok ⟨r, expressions, most, before, after⟩
  | .error f => .error f.message

/-- The program at work on its files. -/
def selectFrom (s : Selection) (speaker : Speaker) (files : List Text) (p : Process) :
    Process × ExitStatus :=
  let labelled := (1 < files.length || s.asks 'H') && !s.asks 'h'
  let (sources, p) := readOperands files p
  let selected := sources.map fun f =>
    (f, if f.isRead then s.lines 1 0 s.most (byteLines (selectContent f)) else [])
  let isSelected (ls : List Selection.Line) : Bool := ls.any Selection.Line.isSelected
  let isFound (f : Source) (ls : List Selection.Line) : Bool :=
    f.isRead && isSelected ls != s.asks 'L'
  let found := selected.any fun (f, ls) => isFound f ls
  let heard := if s.asks 'q' then
      selected.takeWhile fun (f, ls) => !isFound f ls
    else selected
  let p := heard.foldl (fun p (f, ls) =>
    if !f.isRead then if s.asks 's' then p else f.complain speaker selectLabel p
    else
      let isText := s.asks 'a' || isShowable f
      let p := p.say (s.shown labelled isText (selectLabel f.name) ls)
      if isText || s.isBrief || !isSelected ls then p
      else speaker.complain (selectLabel f.name ++ ": binary file matches".toList) p) p
  let failed := !sources.all Source.isRead && !(found && s.asks 'q')
  speaker.closeOutput 2 (p, if failed then .exited 2 else .ofBool 1 found)

/-- The program. -/
def select (s : Speaker) : Program := fun args p =>
  let short : Speaker := { s with name := s.shortName }
  match selectOptions.read args with
  | .error why => (short.complainOfUse [why, selectUsage] p, .exited 2)
  | .ok r =>
    match (r.values 'f').mapM fun name => (patternsOfFile p name).mapError fun f => (name, f) with
    | .error (name, f) => (s.complain (name ++ [':', ' '] ++ f.brief) p, .exited 2)
    | .ok lines =>
      let named := r.values 'e' ++ lines.flatten
      let isNamed := r.asks 'e' || r.asks 'f'
      match isNamed, r.operands with
      | false, [] =>
        (p.complain (selectUsage ++ ['\n'] ++ Speaker.seeHelp s.shortName), .exited 2)
      | _, _ =>
        let (patterns, operands) :=
          if isNamed then (named, r.operands) else (r.operands.take 1, r.operands.drop 1)
        match readSelection r patterns with
        | .error why => (s.complain why p, .exited 2)
        | .ok selection => selectFrom selection s (operandsOrInput operands) p

end Program

end Fanout
