import Fanout.Product.Generator

/-!
# The odometer

The commands of a generator come one by one. An odometer has one wheel for each group: the terms of
the group from the current one on. The last group turns fastest, and a group that has gone through
its terms starts over and turns the one before it. The wheel of a back reference never moves.

* `Odometer.turn`: the wheels after one step, and whether all of them started over.
* `next?`: the next command; `commands` are all of them.
-/

namespace Fanout

/-- A position in the commands of a generator. -/
structure Odometer where
  /-- For each group, its terms from the current one on. -/
  wheels : List (List Term)
  /-- All commands have been gone through. -/
  done : Bool
  deriving DecidableEq, Repr

namespace Odometer

/-- The wheels after one step, and whether all of them started over. -/
def turn : List Group → List (List Term) → List (List Term) × Bool
  | g :: gs, w :: ws =>
    let (rest, restarted) := turn gs ws
    if !restarted || !g.branches then (w :: rest, restarted)
    else match w.tail with
      | [] => (g.terms :: rest, true)
      | ahead => (ahead :: rest, false)
  | _, _ => ([], true)

/-- The position in front of the first command. -/
def start (g : Generator) : Odometer := ⟨g.groups.map Group.terms, g.isEmpty⟩

/-- The position behind the current command. -/
def advance (g : Generator) (o : Odometer) : Odometer :=
  let (wheels, restarted) := turn g.groups o.wheels
  ⟨wheels, restarted⟩

/-- The current command and the position behind it. -/
def next? (g : Generator) (o : Odometer) : Option (Text × Odometer) :=
  if o.done then none else some (g.command o.wheels, o.advance g)

/-- The position `n` commands further, or the end when there are fewer. -/
def skip (g : Generator) : Nat → Odometer → Odometer
  | 0, o => o
  | n + 1, o => if o.done then o else skip g n (o.advance g)

/-- The next commands, at most `n` of them. -/
def collect (g : Generator) : Nat → Odometer → List Text
  | 0, _ => []
  | n + 1, o => if o.done then [] else g.command o.wheels :: collect g n (o.advance g)

/-- How many commands are left, when there are at most `n`. -/
def count (g : Generator) : Nat → Odometer → Nat
  | 0, _ => 0
  | n + 1, o => if o.done then 0 else count g n (o.advance g) + 1

/-- The last command left, when there are at most `n`. -/
def last? (g : Generator) : Nat → Odometer → Option Text
  | 0, _ => none
  | n + 1, o =>
    if o.done then none
    else match last? g n (o.advance g) with
      | some c => some c
      | none => some (g.command o.wheels)

end Odometer

namespace Generator

/-- All commands, in order. -/
def commands (g : Generator) : List Text := Odometer.collect g g.size (Odometer.start g)

/-- The commands from number `skip` on, at most `limit` of them. -/
def commandsFrom (g : Generator) (skip limit : Nat) : List Text :=
  Odometer.collect g limit (Odometer.skip g skip (Odometer.start g))

end Generator

end Fanout
