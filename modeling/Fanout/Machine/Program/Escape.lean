import Fanout.Machine.Process

/-!
# Backslash sequences

Programs that print text know sequences that begin with a backslash. `decodeEscapes` replaces them
by the bytes they stand for; a sequence nobody knows stays as it is. The sequence `\c` may end all
output.
-/

namespace Fanout

/-- Which sequences are known. -/
structure EscapeStyle where
  /-- An octal number may be written behind a zero that does not count as a digit. -/
  leadingZero : Bool := true
  /-- The escape character has a letter. -/
  escapeLetter : Bool := true
  /-- A number may be hexadecimal. -/
  hexadecimal : Bool := false
  /-- There is a sequence that ends all output. -/
  stops : Bool := true
  /-- A double quote may have a backslash in front of it. -/
  doubleQuote : Bool := false

/-- The letters of the one-letter sequences, with what they stand for. -/
def escapeLetters : List (Char × Char) :=
  [('a', '\x07'), ('b', '\x08'), ('f', '\x0c'), ('n', '\n'), ('r', '\r'), ('t', '\t'),
   ('v', '\x0b'), ('\\', '\\')]

/-- The digit is octal. -/
def isOctal (c : Char) : Bool := '0' ≤ c && c ≤ '7'

/-- The value of a hexadecimal digit. -/
def hexValue? (c : Char) : Option Nat :=
  if c.isDigit then some (c.toNat - '0'.toNat)
  else if 'a' ≤ c && c ≤ 'f' then some (c.toNat - 'a'.toNat + 10)
  else if 'A' ≤ c && c ≤ 'F' then some (c.toNat - 'A'.toNat + 10)
  else none

/-- The first digits of a text, at most `n` of them. -/
def leadingDigits (p : Char → Bool) (n : Nat) (t : Text) : Text := (t.take n).takeWhile p

/-- What a sequence stands for and what follows it; nothing when it ends all output. The text
begins behind the backslash. -/
def readEscape (style : EscapeStyle) (t : Text) : Option (Text × Text) :=
  match t with
  | [] => some (['\\'], [])
  | c :: rest =>
    match escapeLetters.lookup c with
    | some d => some ([d], rest)
    | none =>
      if style.stops && c = 'c' then none
      else if isOctal c then
        let skip := if style.leadingZero && c = '0' then 1 else 0
        let digits := leadingDigits isOctal 3 (t.drop skip)
        let n := Nat.ofDigitChars 8 digits 0
        some ([Char.ofNat (n % 256)], t.drop (skip + digits.length))
      else if style.escapeLetter && c = 'e' then some (['\x1b'], rest)
      else if style.doubleQuote && c = '"' then some (['"'], rest)
      else if style.hexadecimal && c = 'x' then
        match (leadingDigits (fun d => (hexValue? d).isSome) 2 rest).filterMap hexValue? with
        | [] => some (['\\', 'x'], rest)
        | digits =>
          some ([Char.ofNat (digits.foldl (16 * · + ·) 0)], rest.drop digits.length)
      else some (['\\', c], rest)

/-- Bytes given as characters with their sequences replaced, and whether output goes on behind
them. -/
def decodeEscapes (style : EscapeStyle) : Nat → Text → Text × Bool
  | 0, _ | _, [] => ([], true)
  | n + 1, c :: t =>
    if c = '\\' then
      match readEscape style t with
      | none => ([], false)
      | some (decoded, rest) =>
        let (more, open_) := decodeEscapes style n rest
        (decoded ++ more, open_)
    else
      let (more, open_) := decodeEscapes style n t
      (c :: more, open_)

end Fanout
