import Fanout.Quote.Scanner
import Fanout.Text.Numeral

/-!
# Templates

A template is a command line with holes: literal stretches and slots, in order. Each slot belongs
to a group of terms. As it is read, a group is still written text (`RawGroup`); expanding its
terms comes later.

* `marked`: the template as one text, with a placeholder for each slot.
* `absorb`: the path in front of a slot moves out of the literal that holds it.
-/

namespace Fanout

/-- A piece of a template. -/
inductive Segment where
  /-- Text as written, escapes included. -/
  | literal (text : Text)
  /-- The place of a group, by its number from zero. -/
  | slot (group : Nat)
  deriving DecidableEq, Repr

namespace Segment

/-- The character that frames a placeholder. -/
def frame : Char := '\x1e'

/-- The piece as text, a slot as its placeholder. -/
def marked : Segment → Text
  | .literal t => t
  | .slot k => frame :: "GROUP_".toList ++ Text.numeral k ++ [frame]

/-- The piece is a slot. -/
def isSlot : Segment → Bool
  | .literal _ => false
  | .slot _ => true

end Segment

/-- Pieces in order as one text, a placeholder for each slot. -/
def markedText (segments : List Segment) : Text := segments.flatMap Segment.marked

/-- A group as it is written. -/
structure RawGroup where
  /-- The group branches but shows nothing. -/
  hidden : Bool
  /-- The terms between the commas, escapes included. -/
  terms : List Text
  /-- The text in front of the group, when it reads as a path. -/
  externalPath : Option Text
  /-- The quotes around the opening delimiter. -/
  quote : QuoteContext
  /-- Byte offset of the opening delimiter. -/
  start : Nat
  deriving DecidableEq, Repr

/-- A template as it is written: its pieces, and the groups its slots stand for. -/
structure RawTemplate where
  segments : List Segment
  groups : List RawGroup
  deriving DecidableEq, Repr

/-- The literal in front of the first slot `k` loses `path` from its end. Without such a literal,
or when it ends otherwise, nothing changes. -/
def cutBefore (k : Nat) (path : Text) : List Segment → List Segment
  | .literal t :: .slot j :: rest =>
    if j = k then .literal (Text.dropEnding path t) :: .slot j :: rest
    else .literal t :: cutBefore k path (.slot j :: rest)
  | .slot j :: rest => if j = k then .slot j :: rest else .slot j :: cutBefore k path rest
  | s :: rest => s :: cutBefore k path rest
  | [] => []

namespace RawTemplate

/-- The external path of group `k` moves out of the template. -/
def absorb (t : RawTemplate) (k : Nat) : RawTemplate :=
  match t.groups[k]?.bind RawGroup.externalPath with
  | some path => { t with segments := cutBefore k path t.segments }
  | none => t

end RawTemplate

end Fanout
