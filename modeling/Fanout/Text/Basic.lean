/-!
# Text

A text is a list of characters, so that every operation on it is a recursion a proof can follow.
Sizes and offsets that are shown to a user count UTF-8 bytes (`byteLength`); everything else
counts characters.

* `after?`: what follows a given opening, if the text has that opening.
* `splitOn`: the pieces between the occurrences of a separator; joined by the separator they are the
  text again (`intercalate_splitOn`).
-/

namespace Fanout

/-- Text is a sequence of Unicode characters. -/
abbrev Text := List Char

namespace Text

/-- The number of bytes of the UTF-8 form. -/
def byteLength : Text → Nat
  | [] => 0
  | c :: t => c.utf8Size + byteLength t

@[simp] theorem byteLength_nil : byteLength [] = 0 := rfl

@[simp] theorem byteLength_cons (c : Char) (t : Text) :
    byteLength (c :: t) = c.utf8Size + byteLength t := rfl

@[simp] theorem byteLength_append (s t : Text) :
    byteLength (s ++ t) = byteLength s + byteLength t := by
  induction s with
  | nil => simp
  | cons c s ih => rw [List.cons_append, byteLength_cons, byteLength_cons, ih, Nat.add_assoc]

/-- What follows `opening` in the text, when the text begins with it. -/
def after? : (opening : Text) → Text → Option Text
  | [], t => some t
  | _ :: _, [] => none
  | c :: p, d :: t => if c = d then after? p t else none

theorem after?_eq_some_iff {p t r : Text} : after? p t = some r ↔ t = p ++ r := by
  induction p generalizing t with
  | nil => simp [after?]
  | cons c p ih =>
    cases t with
    | nil => simp [after?]
    | cons d t =>
      by_cases h : c = d
      · simp [after?, h, ih]
      · simp [after?, h, Ne.symm h]

/-- The text without `ending`, when it ends with it; the text itself otherwise. -/
def dropEnding (ending t : Text) : Text :=
  if ending.isSuffixOf t then t.take (t.length - ending.length) else t

theorem dropEnding_append (ending t : Text) : dropEnding ending (t ++ ending) = t := by
  simp [dropEnding, List.suffix_append]

/-- The pieces between the occurrences of `sep`, in order. -/
def splitOn (sep : Char) : Text → List Text
  | [] => [[]]
  | c :: t =>
    if c = sep then [] :: splitOn sep t
    else match splitOn sep t with
      | [] => [[c]]
      | p :: ps => (c :: p) :: ps

theorem splitOn_ne_nil (sep : Char) (t : Text) : splitOn sep t ≠ [] := by
  cases t with
  | nil => simp [splitOn]
  | cons c t =>
    unfold splitOn
    split
    · simp
    · split <;> simp

theorem intercalate_splitOn (sep : Char) (t : Text) :
    List.intercalate [sep] (splitOn sep t) = t := by
  induction t with
  | nil => rfl
  | cons c t ih =>
    unfold splitOn
    split
    · next h =>
      subst h
      cases hs : splitOn c t with
      | nil => exact absurd hs (splitOn_ne_nil c t)
      | cons p ps => simpa [List.intercalate, hs] using ih
    · split
      · next hs => exact absurd hs (splitOn_ne_nil sep t)
      · next p ps hs =>
        rw [hs] at ih
        cases ps with
        | nil => simpa [List.intercalate] using ih
        | cons q qs => simpa [List.intercalate] using ih

/-- The texts one after another with `glue` between neighbours. -/
def join (glue : Text) (pieces : List Text) : Text := List.intercalate glue pieces

/-- ASCII capitals become small letters; every other character stays. -/
def asciiLower (t : Text) : Text := t.map Char.toLower

end Text

end Fanout
