import Fanout.Directive.Basic

/-!
# Ranges

A range counts from its first bound to its last, up or down, both included. The bounds are machine
words and must differ. Not every range is short enough to be listed: how much memory there is does
not matter here, but how much of it can be addressed does.

* `rangeBounds`: the bounds as numbers.
* `countUp`: the numerals from one number to a larger one.
* `maxTexts`: how many texts a list can have.
* `expandRange`: the numerals of a range.
-/

namespace Fanout

/-- A range bound as a number. -/
def rangeBound (t : Text) : Except Fault Nat :=
  match Text.word? t with
  | some n => .ok n
  | none => .error (.rangeBound t)

/-- The bounds of a range, two numbers that differ. -/
def rangeBounds (first last : Text) : Except Fault (Nat × Nat) := do
  let a ← rangeBound first
  let b ← rangeBound last
  if a = b then .error (.emptyRange first last) else .ok (a, b)

/-- How many numbers there are from one to another. -/
def rangeLength (a b : Nat) : Nat := max a b - min a b + 1

/-- The numerals from `a` to `b`. -/
def countUp (a b : Nat) : List Text := (List.range' a (b - a + 1)).map Text.numeral

/-- How many texts a list can have. It lies in one piece of memory, which has fewer than `2 ^ 63`
bytes, and each text takes 24 of them, whatever its length. -/
def maxTexts : Nat := 0x7fffffffffffffff / 24

/-- The numerals of a range, in the direction it is written. Whether they make too long a list is
known before the first one is written. -/
def expandRange (first last : Text) : Except Stop (List Text) := do
  let (a, b) ← Stop.lift (rangeBounds first last)
  if maxTexts < rangeLength a b then .error .overflow
  else if a < b then .ok (countUp a b)
  else .ok (countUp b a).reverse

end Fanout
