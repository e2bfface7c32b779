import Fanout.Directive.Expansion
import Fanout.Product.Odometer
import Fanout.Settings
import Fanout.ShellWord.Quote

/-!
# From a line to its commands

Building a line reads its template, expands the terms of every group, moves the external paths that
groups absorb out of the template, and checks that template and groups fit. The first step that
fails decides why the line is given up, and within it the leftmost group and term.

* `buildLine`: the generator of a line; `build` is the same for words, joined as a shell would need
  them quoted.
* `emptyGroups`: the groups without a term that building comes across.
-/

namespace Fanout

/-- The expansions of written terms, in order, up to the first that fails. -/
def expandTerms (t : FileTree) (delimiter : Char) (external : Option Text) :
    List Text → Except Stop (List TermExpansion)
  | [] => .ok []
  | raw :: raws => do
    let first ← expandTerm t delimiter external raw
    let rest ← expandTerms t delimiter external raws
    .ok (first :: rest)

/-- A written group with its terms expanded. Whether it is a back reference is decided by what is
written, so a value that happens to be a number never refers to a group. -/
def expandGroup (t : FileTree) (delimiter : Char) (raw : RawGroup) : Except Stop Group := do
  let expansions ← expandTerms t delimiter raw.externalPath raw.terms
  .ok
    { hidden := raw.hidden
      terms := expansions.flatMap fun e => e.values.map (Term.mk · e.nodes)
      externalPath := raw.externalPath
      absorbed := expansions.any TermExpansion.absorbed
      quote := raw.quote
      backref := backref? raw.terms }

/-- The written groups with their terms expanded, in order, up to the first that fails. -/
def expandGroups (t : FileTree) (delimiter : Char) : List RawGroup → Except Stop (List Group)
  | [] => .ok []
  | raw :: raws => do
    let first ← expandGroup t delimiter raw
    let rest ← expandGroups t delimiter raws
    .ok (first :: rest)

/-- The numbers, counted from `k`, of the groups that absorb their external paths. -/
def absorbing (k : Nat) : List Group → List Nat
  | [] => []
  | g :: gs => if g.absorbed then k :: absorbing (k + 1) gs else absorbing (k + 1) gs

/-- The template without the external paths that its groups absorb. -/
def RawTemplate.absorbAll (raw : RawTemplate) (groups : List Group) : RawTemplate :=
  (absorbing 0 groups).foldl RawTemplate.absorb raw

/-- The generator of a line. -/
def buildLine (t : FileTree) (style : GroupStyle) (line : Text) : Except Stop Generator := do
  let raw ← Stop.lift (RawTemplate.read style line)
  let groups ← expandGroups t style.delimiter raw.groups
  Stop.lift
    (Generator.ofGroups (.ofSegments (raw.absorbAll groups).segments style.delimiter) groups)

/-- The generator of a row of words. -/
def build (t : FileTree) (style : GroupStyle) (tokens : List Text) : Except Stop Generator :=
  buildLine t style (ShellWord.join tokens)

/-! ## Groups without terms -/

/-- The numbers, counted from `k`, of the groups without a term, up to the first that fails. -/
def emptyAmong (t : FileTree) (delimiter : Char) (k : Nat) : List RawGroup → List Nat
  | [] => []
  | raw :: raws =>
    match expandGroup t delimiter raw with
    | .error _ => []
    | .ok g =>
      if g.terms.isEmpty then k :: emptyAmong t delimiter (k + 1) raws
      else emptyAmong t delimiter (k + 1) raws

/-- The groups of a line that turn out to have no term, as far as building gets. -/
def emptyGroups (t : FileTree) (style : GroupStyle) (line : Text) : List Nat :=
  match RawTemplate.read style line with
  | .error _ => []
  | .ok raw => emptyAmong t style.delimiter 0 raw.groups

/-- What to say about a group without a term. -/
def emptyGroupWarning (k : Nat) : Text :=
  "group ".toList ++ Text.numeral (k + 1)
    ++ " produced no terms; nothing will be generated".toList

end Fanout
