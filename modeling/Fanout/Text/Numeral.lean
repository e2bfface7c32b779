import Fanout.Text.Basic

/-!
# Decimal numerals

Numbers are written without leading zeros and read from any row of ASCII digits. Counters and
bounds are machine words of 64 bits: the largest is `maxWord`.

* `value_numeral`: reading what was written gives the number back.
* `word?`: the number a row of digits denotes, when it fits a word; one plus sign may lead.
-/

namespace Fanout

namespace Text

/-- The largest number of 64 bits. -/
def maxWord : Nat := 0xffffffffffffffff

/-- The decimal numeral of a number, without leading zeros. -/
def numeral (n : Nat) : Text := Nat.toDigits 10 n

/-- At least one character, and only ASCII digits. -/
def isDigits (t : Text) : Bool := !t.isEmpty && t.all Char.isDigit

/-- The number a row of digits denotes. -/
def value (t : Text) : Nat := Nat.ofDigitChars 10 t 0

/-- The word that a row of digits denotes, when it is no larger than `maxWord`. -/
def digitsWord? (t : Text) : Option Nat :=
  if isDigits t && value t ≤ maxWord then some (value t) else none

/-- The word that a numeral denotes. A plus sign may stand in front of the digits. -/
def word? : Text → Option Nat
  | '+' :: t => digitsWord? t
  | t => digitsWord? t

/-- The number of a row of digits, or `maxWord` when it is larger than that. -/
def cappedValue (t : Text) : Nat := min (value t) maxWord

end Text

end Fanout
