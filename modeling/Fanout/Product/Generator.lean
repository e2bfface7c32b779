import Fanout.Fault.Basic
import Fanout.Product.Group
import Fanout.Product.Render

/-!
# Generators

A generator is a template with the groups that fill its slots. It stands for the product of its
groups: one command for every choice of one term from each group that branches. A back reference
takes the term that its target has taken.

* `Generator.ofGroups`: a template and groups that fit. Each slot has a group, and every back
  reference names an earlier one; the first group that does not is the fault.
* `size`: how many commands there are; `cappedSize` is the same as a machine word.
* `command`: the command for one choice of terms.
-/

namespace Fanout

/-- A template with the groups that fill its slots. -/
structure Generator where
  template : Template
  groups : List Group
  deriving DecidableEq, Repr

namespace Generator

/-- A back reference names one of the `k` groups before it. -/
def checkBackref (k : Nat) (g : Group) : Except Fault Unit :=
  match g.backref with
  | some 0 => .error (.zeroBackref k)
  | some n => if k < n then .error (.forwardBackref k n) else .ok ()
  | none => .ok ()

/-- The back references of groups behind `k` others, checked in order. -/
def checkBackrefs : Nat → List Group → Except Fault Unit
  | _, [] => .ok ()
  | k, g :: gs =>
    match checkBackref k g with
    | .error f => .error f
    | .ok () => checkBackrefs (k + 1) gs

/-- The generator of a template and its groups, when they fit. -/
def ofGroups (template : Template) (groups : List Group) : Except Fault Generator :=
  if template.slotCount ≠ groups.length then
    .error (.slotMismatch template.slotCount groups.length)
  else
    match checkBackrefs 0 groups with
    | .error f => .error f
    | .ok () => .ok ⟨template, groups⟩

/-- The number of commands. -/
def size (g : Generator) : Nat := (g.groups.map Group.width).foldl (· * ·) 1

/-- The product of machine words, as long as it is one. -/
def wordProduct? : Nat → List Nat → Option Nat
  | n, [] => some n
  | n, w :: ws => if Text.maxWord < n * w then none else wordProduct? (n * w) ws

/-- The number of commands as a machine word. From the first product on that is too large, it is
the largest word. -/
def cappedSize (g : Generator) : Nat :=
  (wordProduct? 1 ((g.groups.filter Group.branches).map (·.terms.length))).getD Text.maxWord

/-- There is no command. -/
def isEmpty (g : Generator) : Bool := g.cappedSize = 0

/-! ## Commands -/

/-- The term that each group takes, behind those in `taken`, when a branching group takes the first
one on its wheel. A back reference takes what its target took. -/
def take (taken : List Term) : List Group → List (List Term) → List Term
  | g :: gs, w :: ws =>
    let term := match g.backref with
      | some n => taken[n - 1]?.getD default
      | none => w.headD default
    take (taken ++ [term]) gs ws
  | _, _ => taken

/-- What the groups show for the terms they take. -/
def slotTexts (g : Generator) (terms : List Term) : List (Option Text) :=
  List.zipWith Group.slotText g.groups terms

/-- The command for the terms that the groups take. -/
def commandOf (g : Generator) (terms : List Term) : Text :=
  g.template.render (g.slotTexts terms)

/-- The command for a choice of terms, the first one on the wheel of each group. -/
def command (g : Generator) (wheels : List (List Term)) : Text :=
  g.commandOf (take [] g.groups wheels)

end Generator

end Fanout
