import Fanout.Text.Basic

/-!
# Byte offsets

An offset is a number of UTF-8 bytes from the start of a text. Not every number is the offset of a
character: some fall inside one, some lie past the end.

* `upTo n t`: the longest opening of `t` of at most `n` bytes.
* `before? n t`: the opening of exactly `n` bytes, if `n` falls between two characters.
* `isBoundary`: the offset falls between two characters, or at an end.
-/

namespace Fanout

namespace Text

/-- The longest opening of the text that takes at most `n` bytes. -/
def upTo (n : Nat) : Text → Text
  | [] => []
  | c :: t => if c.utf8Size ≤ n then c :: upTo (n - c.utf8Size) t else []

/-- What `upTo n` leaves. -/
def beyond (n : Nat) : Text → Text
  | [] => []
  | c :: t => if c.utf8Size ≤ n then beyond (n - c.utf8Size) t else c :: t

theorem upTo_append_beyond (n : Nat) (t : Text) : upTo n t ++ beyond n t = t := by
  induction t generalizing n with
  | nil => rfl
  | cons c t ih => by_cases h : c.utf8Size ≤ n <;> simp [upTo, beyond, h, ih]

/-- The opening of exactly `n` bytes, when `n` falls between two characters or at an end. -/
def before? (n : Nat) (t : Text) : Option Text :=
  if byteLength (upTo n t) = n then some (upTo n t) else none

/-- The offset falls between two characters of the text, or at one of its ends. -/
def isBoundary (n : Nat) (t : Text) : Bool := (before? n t).isSome

end Text

end Fanout
