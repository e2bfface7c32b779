import Fanout.Text.Basic

/-!
# Paths

A path is a text with slashes. What it names is a row of components: empty pieces count for
nothing, and so does a lone dot, except that a relative path may begin with one.

* `components`: the row.
* `le`: paths are ordered component by component, so a directory comes right before what it holds,
  whatever characters follow its name elsewhere.
* `fileName?`: the last component, when it is a name.
* `child`: the path of an entry of a directory.
-/

namespace Fanout

namespace Path

/-- A step of a path. -/
inductive Component where
  /-- The root directory. -/
  | root
  /-- The dot a relative path begins with. -/
  | current
  /-- Two dots. -/
  | parent
  /-- A name. -/
  | name (n : Text)
  deriving DecidableEq, Repr

namespace Component

/-- Steps of different sorts: root, dot, two dots, names. -/
def rank : Component → Nat
  | .root => 0
  | .current => 1
  | .parent => 2
  | .name _ => 3

end Component

/-- The path begins at the root. -/
def isAbsolute : Text → Bool
  | c :: _ => c = '/'
  | [] => false

/-- The pieces between the slashes. -/
def pieces (p : Text) : List Text := p.splitOn '/'

/-- The piece counts for nothing behind the start of a path. -/
def isVoid (piece : Text) : Bool := piece.isEmpty || piece = ['.']

/-- A piece that counts, as a step. -/
def step (piece : Text) : Component := if piece = ['.', '.'] then .parent else .name piece

/-- What a path begins with: the root, a dot, or neither. -/
def opening (p : Text) : List Component :=
  if isAbsolute p then [.root] else if (pieces p).head? = some ['.'] then [.current] else []

/-- The steps behind the opening. -/
def body (p : Text) : List Component := ((pieces p).filter (!isVoid ·)).map step

/-- The steps of a path. -/
def components (p : Text) : List Component := opening p ++ body p

/-! ## Order -/

/-- Texts in the order of their characters; an opening comes before what it opens. -/
def textLe : Text → Text → Bool
  | [], _ => true
  | _ :: _, [] => false
  | c :: s, d :: t => c.toNat < d.toNat || (c = d && textLe s t)

/-- Steps in the order of their sorts, names in the order of their characters. -/
def componentLe : Component → Component → Bool
  | .name m, .name n => textLe m n
  | a, b => a.rank ≤ b.rank

/-- Rows of steps, compared at the first difference. -/
def componentsLe : List Component → List Component → Bool
  | [], _ => true
  | _ :: _, [] => false
  | a :: as, b :: bs => if a = b then componentsLe as bs else componentLe a b

/-- The order of paths. -/
def le (p q : Text) : Bool := componentsLe (components p) (components q)

/-! ## Names -/

/-- The last step, when it is a name. -/
def fileName? (p : Text) : Option Text :=
  match (components p).getLast? with
  | some (.name n) => some n
  | _ => none

/-- The path with one more piece. There is always a slash in between. -/
def child (p piece : Text) : Text :=
  if p.isEmpty || p.getLast? = some '/' then p ++ piece else p ++ '/' :: piece

/-- The path is a lone dot, however it is written. -/
def isCurrent (p : Text) : Bool := components p = [.current]

end Path

end Fanout
