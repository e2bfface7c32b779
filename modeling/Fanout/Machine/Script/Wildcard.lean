import Fanout.Text.Basic
import Fanout.Machine.CharClass

/-!
# Wildcards

A script can compare texts with patterns, in which an asterisk stands for any text, a question mark
for any character, and a bracket for one of the characters in it. Quoted characters stand for
themselves.
-/

namespace Fanout

namespace Wildcard

/-- A character of a pattern, and whether it was quoted. -/
abbrev Sign := Char × Bool

/-- What a bracket accepts, read up to its end, and what follows it. -/
def readMembers? : Nat → Bool → List Sign → Option ((Char → Bool) × List Sign)
  | 0, _, _ | _, _, [] => none
  | n + 1, first, (c, quoted) :: t =>
    if c = ']' && !quoted && !first then some (fun _ => false, t)
    else match readClassName? (((c, quoted) :: t).map Prod.fst) with
      | some (name, rest) => do
        let accepts ← charClasses.lookup (String.ofList name)
        let (others, rest) ← readMembers? n false (t.drop (t.length - rest.length))
        some (fun d => accepts d || others d, rest)
      | none =>
        match t with
        | ('-', false) :: (b, isQuoted) :: rest =>
          if b = ']' && !isQuoted then do
            let (others, rest) ← readMembers? n false t
            some (fun d => d = c || others d, rest)
          else do
            let (others, rest) ← readMembers? n false rest
            some (fun d => (c ≤ d && d ≤ b) || others d, rest)
        | _ => do
          let (others, rest) ← readMembers? n false t
          some (fun d => d = c || others d, rest)

/-- What a bracket behind its opening accepts, and what follows it. -/
def readBracket? : List Sign → Option ((Char → Bool) × List Sign)
  | ('!', false) :: t | ('^', false) :: t => do
    let (accepts, rest) ← readMembers? (t.length + 1) true t
    some (fun c => !accepts c, rest)
  | t => readMembers? (t.length + 1) true t

/-- The pattern describes the whole text. Each step takes a sign or a character. -/
def matchesFrom : Nat → List Sign → Text → Bool
  | 0, _, _ => false
  | _, [], t => t.isEmpty
  | n + 1, ('*', false) :: p, t =>
    matchesFrom n p t || match t with
      | [] => false
      | _ :: rest => matchesFrom n (('*', false) :: p) rest
  | n + 1, ('?', false) :: p, t =>
    match t with
    | [] => false
    | _ :: rest => matchesFrom n p rest
  | n + 1, ('[', false) :: p, t =>
    match readBracket? p, t with
    | some (accepts, behind), c :: rest => accepts c && matchesFrom n behind rest
    | some _, [] => false
    | none, c :: rest => c = '[' && matchesFrom n p rest
    | none, [] => false
  | n + 1, (c, _) :: p, t =>
    match t with
    | [] => false
    | d :: rest => c = d && matchesFrom n p rest

/-- The pattern describes the whole text. -/
def covers (p : List Sign) (t : Text) : Bool := matchesFrom (p.length + t.length + 1) p t

/-- The text without the shortest or longest start that the pattern describes. -/
def withoutStart (longest : Bool) (p : List Sign) (t : Text) : Text :=
  let cuts := (List.range (t.length + 1)).filter fun k => Wildcard.covers p (t.take k)
  match if longest then cuts.getLast? else cuts.head? with
  | some k => t.drop k
  | none => t

/-- The text without the shortest or longest end that the pattern describes. -/
def withoutEnd (longest : Bool) (p : List Sign) (t : Text) : Text :=
  let cuts := (List.range (t.length + 1)).filter fun k => Wildcard.covers p (t.drop k)
  match if longest then cuts.head? else cuts.getLast? with
  | some k => t.take k
  | none => t

end Wildcard

end Fanout
