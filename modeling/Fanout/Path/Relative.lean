import Fanout.Path.Component

/-!
# Relative paths

`relative? base p` is what a path adds to a base it lies in. The steps of the base have to be the
first steps of the path, sort by sort: a path that begins with a dot does not lie in one that does
not. What is left keeps its spelling, without the empty and single-dot pieces at its ends.

* `relative?_eq_none_iff`: there is a relative path unless a step of the base is missing.
-/

namespace Fanout

namespace Path

/-- The steps of the first row lead the second. -/
def leads (base steps : List Component) : Bool := base.isPrefixOf steps

/-- The pieces without the void ones at the end. -/
def trimPieces (ps : List Text) : List Text := (ps.reverse.dropWhile isVoid).reverse

/-- What is left of the pieces behind `n` pieces that count. -/
def dropSteps : Nat → List Text → List Text
  | 0, ps => ps
  | _, [] => []
  | n + 1, p :: ps => if isVoid p then dropSteps (n + 1) ps else dropSteps n ps

/-- Pieces with slashes between them. -/
def unite (ps : List Text) : Text := Text.join ['/'] ps

/-- The path without the void pieces it ends with; the root or a leading dot stays. -/
def trimEnd (p : Text) : Text :=
  match opening p, pieces p with
  | _ :: _, first :: rest =>
    match trimPieces rest with
    | [] => if isAbsolute p then ['/'] else first
    | kept => unite (first :: kept)
  | _, ps => unite (trimPieces ps)

/-- What the path adds to a base it lies in. -/
def relative? (base p : Text) : Option Text :=
  if leads (components base) (components p) then
    if components base = [] then some (trimEnd p)
    else
      let rest := if opening p = [] then pieces p else (pieces p).tail
      let below := dropSteps (body base).length rest
      some (unite (trimPieces (below.dropWhile isVoid)))
  else none

theorem relative?_eq_none_iff {base p : Text} :
    relative? base p = none ↔ leads (components base) (components p) = false := by
  unfold relative?
  split
  · next h => split <;> simp [h]
  · next h => simp [h]

end Path

end Fanout
