import Fanout.Quote.Slot
import Fanout.Text.Numeral

/-!
# Groups

A group is a list of terms to choose from, or a back reference to an earlier group. What it shows
in its slot depends on how it is written: a hidden group shows nothing, an absorbed path stands in
front of each term, and a term is quoted for the quotes around the slot.

* `backref?`: the group that a lone row of digits refers to, counted from one.
* `Group.slotText`: what a group shows for a term.
-/

namespace Fanout

/-- One value to choose. -/
structure Term where
  value : Text
  /-- The value is the name of a file system node. -/
  node : Bool := false
  deriving DecidableEq, Repr, Inhabited

/-- A group with its terms. -/
structure Group where
  /-- The group branches but shows nothing. -/
  hidden : Bool := false
  terms : List Term
  externalPath : Option Text := none
  /-- The external path is shown here, no longer in the template. -/
  absorbed : Bool := false
  quote : QuoteContext := .plain
  /-- The earlier group that this one repeats, counted from one. -/
  backref : Option Nat := none
  deriving DecidableEq, Repr

/-- The group that written terms refer to: a lone row of digits names it. A number too large for a
machine word counts as the largest. -/
def backref? : List Text → Option Nat
  | [t] => if Text.isDigits t then some (Text.cappedValue t) else none
  | _ => none

namespace Group

/-- The group chooses by itself. -/
def branches (g : Group) : Bool := g.backref.isNone

/-- How many choices the group adds to a product. -/
def width (g : Group) : Nat := if g.branches then g.terms.length else 1

/-- The path that a group shows in front of its terms. A back reference shows none. -/
def shownPath (g : Group) : Text :=
  if g.branches && g.absorbed then g.externalPath.getD [] else []

/-- What the group shows for a term, or nothing when it is hidden. -/
def slotText (g : Group) (t : Term) : Option Text :=
  if g.hidden then none else some (g.shownPath ++ quoteTerm g.quote t.node t.value)

end Group

end Fanout
