import Fanout.Fault.Basic
import Fanout.Quote.Slot
import Fanout.Template.Basic
import Fanout.Text.Blank

/-!
# Reading a template

A command line is read once, character by character. An unescaped delimiter opens a group, the
next one closes it. Outside groups the reader tracks quotes, so that each group knows the context
it stands in; inside a group a quote is part of a term.

The text glued to the front of a group can be a path that the group inherits. It starts behind the
last blank or quote. Between quotes a blank may be part of a path, so there the whole quoted
stretch counts when it begins as a path does.

A reader holds the texts it is gathering with their last character first, so that a character
joins them in one step.

* `Reader.step`: one character.
* `read`: the template of a line. It fails only when a group is left open.
-/

namespace Fanout

/-- How groups are written: the character around them, and the mark of a hidden one. -/
structure GroupStyle where
  delimiter : Char := '@'
  hiddenMarker : Text := ['-', ':']
  deriving DecidableEq, Repr

/-- A group that is not closed yet. -/
structure OpenGroup where
  start : Nat
  quote : QuoteContext
  /-- The text in front of the group that may be its path. -/
  lead : Text
  /-- The content so far, last character first. -/
  content : Text := []
  deriving DecidableEq, Repr

/-- A reading in progress. -/
structure Reader where
  scanner : Scanner := {}
  /-- How many bytes were read. -/
  offset : Nat := 0
  /-- The text since the last group, last character first. -/
  literal : Text := []
  /-- The part of the literal behind its last unescaped quote, last character first. -/
  quoted : Text := []
  /-- The part of the literal behind its last unescaped quote or blank, last character first. -/
  run : Text := []
  opened : Option OpenGroup := none
  segments : List Segment := []
  groups : List RawGroup := []
  deriving DecidableEq, Repr

/-! ## Groups -/

/-- A path between quotes begins at the root, in a directory named by dots, or at home. -/
def beginsAsPath : Text → Bool
  | c :: _ => c = '/' || c = '.' || c = '~'
  | [] => false

/-- The text that a group opened in the context takes for its lead. -/
def leadOf (quote : QuoteContext) (quoted run : Text) : Text :=
  if quote ≠ .plain && beginsAsPath quoted then quoted else run

/-- The hidden marker, looked for behind the quotes the content begins with, and the content
without it. -/
def stripMarker (marker content : Text) : Bool × Text :=
  match Text.after? marker (content.dropWhile isQuote) with
  | some rest => (true, content.takeWhile isQuote ++ rest)
  | none => (false, content)

/-- The group that an open one has become. A lead counts as a path only with a slash in it. -/
def OpenGroup.close (style : GroupStyle) (g : OpenGroup) : RawGroup :=
  let (hidden, body) := stripMarker style.hiddenMarker g.content.reverse
  { hidden
    terms := (unquoteBody g.quote body).splitUnescaped ','
    externalPath := if g.lead.contains '/' then some g.lead else none
    quote := g.quote
    start := g.start }

/-! ## Characters -/

namespace Reader

/-- The character joins what is being read: the open group, or else the literal. -/
def keep (r : Reader) (c : Char) : Reader :=
  match r.opened with
  | some g => { r with opened := some { g with content := c :: g.content } }
  | none => { r with literal := c :: r.literal, quoted := c :: r.quoted, run := c :: r.run }

/-- An unescaped delimiter opens a group, or closes the open one. -/
def delimit (style : GroupStyle) (r : Reader) : Reader :=
  match r.opened with
  | none =>
    let quote := r.scanner.context
    let lead := leadOf quote r.quoted.reverse r.run.reverse
    { r with opened := some ⟨r.offset, quote, lead, []⟩ }
  | some g =>
    { r with
      literal := [], quoted := [], run := [], opened := none
      segments := r.segments ++ [.literal r.literal.reverse, .slot r.groups.length]
      groups := r.groups ++ [g.close style] }

/-- A path cannot reach back over an unescaped quote, nor, outside quotes, over a blank. -/
def stop (r : Reader) (c : Char) : Reader :=
  if r.opened.isSome then r
  else if isQuote c then { r with quoted := [], run := [] }
  else if Text.isBlank c then { r with run := [] }
  else r

/-- One more character. -/
def step (style : GroupStyle) (r : Reader) (c : Char) : Reader :=
  let tracked := r.opened.isNone
  let scanned := { r with scanner := r.scanner.next c tracked }
  let after :=
    if r.scanner.escapes c tracked then scanned.keep c
    else if c = style.delimiter then scanned.delimit style
    else (scanned.keep c).stop c
  { after with offset := r.offset + c.utf8Size }

/-- The template at the end of the line, unless a group is open. -/
def finish (style : GroupStyle) (r : Reader) : Except Fault RawTemplate :=
  match r.opened with
  | some g => .error (.unterminatedGroup style.delimiter g.start)
  | none => .ok ⟨r.segments ++ [.literal r.literal.reverse], r.groups⟩

end Reader

/-- The template of a command line. -/
def RawTemplate.read (style : GroupStyle) (line : Text) : Except Fault RawTemplate :=
  (line.foldl (Reader.step style) {}).finish style

end Fanout
