import Fanout.Text.Basic

/-!
# Named classes of bytes

Sets of characters and regular expressions can name classes: `[:alpha:]`, `[:digit:]` and so on.
Bytes are given as characters, and only ASCII characters belong to a class.
-/

namespace Fanout

/-- The classes, by name. -/
def charClasses : List (String × (Char → Bool)) :=
  [("alnum", Char.isAlphanum), ("alpha", Char.isAlpha),
   ("blank", fun c => c = ' ' || c = '\t'),
   ("cntrl", fun c => c.toNat < 32 || c.toNat = 127),
   ("digit", Char.isDigit),
   ("graph", fun c => 32 < c.toNat && c.toNat < 127),
   ("lower", Char.isLower),
   ("print", fun c => 32 ≤ c.toNat && c.toNat < 127),
   ("punct", fun c => 32 < c.toNat && c.toNat < 127 && !c.isAlphanum),
   ("space", fun c => c = ' ' || (9 ≤ c.toNat && c.toNat ≤ 13)),
   ("upper", Char.isUpper),
   ("xdigit", fun c => c.isDigit || ('a' ≤ c && c ≤ 'f') || ('A' ≤ c && c ≤ 'F'))]

/-- All bytes, as characters, in the order of their numbers. -/
def allBytes : List Char := (List.range 256).map Char.ofNat

/-- The name between `[:` and `:]` at the start of a text, and what follows it. -/
def readClassName? (t : Text) : Option (Text × Text) := do
  let t ← Text.after? ['[', ':'] t
  let name := t.takeWhile (· ≠ ':')
  let rest ← Text.after? [':', ']'] (t.drop name.length)
  some (name, rest)

end Fanout
