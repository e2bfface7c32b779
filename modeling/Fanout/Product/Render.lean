import Fanout.Quote.Escape
import Fanout.Template.Basic
import Fanout.Text.Blank

/-!
# Rendering a command

A template is rendered by putting a text into each slot. A hidden slot shows nothing, and may
strand blanks: those that then begin or end the command are dropped when they belong to a literal.
Everything else is kept as written.

* `Template.ofSegments`: the literals with their escapes restored.
* `Template.render`: the command for given slot texts.
-/

namespace Fanout

/-- A template to render: its literals are plain text. -/
structure Template where
  segments : List Segment
  deriving DecidableEq, Repr

/-- A piece of a command: a literal, or a slot with or without a text. -/
inductive Piece where
  | literal (text : Text)
  | slot (text : Option Text)
  deriving DecidableEq, Repr

namespace Piece

/-- What the piece shows. -/
def text : Piece → Text
  | .literal t => t
  | .slot t => t.getD []

/-- The piece is a hidden slot. -/
def isHidden : Piece → Bool
  | .slot none => true
  | _ => false

/-- The piece shows something. -/
def isVisible (p : Piece) : Bool := !p.text.isEmpty

/-- The piece after `f`, when it is a literal. -/
def mapLiteral (f : Text → Text) : Piece → Piece
  | .literal t => .literal (f t)
  | .slot t => .slot t

end Piece

/-- The first visible piece, when it is a literal behind a hidden slot, loses the blanks it begins
with. -/
def trimFirst (trim : Text → Text) (hidden : Bool) : List Piece → List Piece
  | [] => []
  | p :: ps =>
    if p.isVisible then (if hidden then p.mapLiteral trim else p) :: ps
    else p :: trimFirst trim (hidden || p.isHidden) ps

/-- The last visible piece, when it is a literal in front of a hidden slot, loses the blanks it
ends with. -/
def trimLast (ps : List Piece) : List Piece :=
  (trimFirst Text.trimEnd false ps.reverse).reverse

/-- The pieces without stranded blanks. A piece that is both the first and the last visible one and
consists of blanks leaves nothing visible, so the order of the two steps does not matter. -/
def trimStranded (ps : List Piece) : List Piece := trimFirst Text.trimStart false (trimLast ps)

namespace Template

/-- The template with the escaped delimiters and commas of its literals restored. -/
def ofSegments (segments : List Segment) (delimiter : Char) : Template :=
  ⟨segments.map fun
    | .literal t => .literal (Text.unescapeStructural delimiter t)
    | .slot k => .slot k⟩

/-- How many slots the template has. -/
def slotCount (t : Template) : Nat := t.segments.countP Segment.isSlot

/-- The template as one text, with a placeholder for each slot. -/
def marked (t : Template) : Text := markedText t.segments

/-- The template with the slots filled. -/
def pieces (t : Template) (slots : List (Option Text)) : List Piece :=
  t.segments.map fun
    | .literal text => .literal text
    | .slot k => .slot (slots[k]?.getD none)

/-- The command with the texts in the slots. -/
def render (t : Template) (slots : List (Option Text)) : Text :=
  (trimStranded (t.pieces slots)).flatMap Piece.text

end Template

end Fanout
