import Fanout.Text.Basic

/-!
# Records of a file

The bytes of a file are UTF-8 text or no text at all. A text file is a row of records, each ended
by a newline; a carriage return right in front of the newline belongs to it. What stands behind
the last newline is one more record, as it is, unless it is empty.

* `ofUtf8?`: the text that bytes are the UTF-8 form of; `ofUtf8?_toUtf8` is the way back.
* `records`: the records of a text.
-/

namespace Fanout

/-- Bytes are compared one by one, here as everywhere in the project. -/
instance (priority := high) decidableEqBytes : DecidableEq ByteArray := ByteArray.instDecidableEq

namespace Text

/-- The UTF-8 form of a text. -/
def toUtf8 (t : Text) : ByteArray := (String.ofList t).toUTF8

/-- The text that the bytes are the UTF-8 form of. -/
def ofUtf8? (b : ByteArray) : Option Text := b.utf8Decode?.map Array.toList

theorem ofUtf8?_toUtf8 (t : Text) : ofUtf8? (toUtf8 t) = some t := by
  simp [ofUtf8?, toUtf8]

/-- The record without the carriage return at its end. -/
def dropReturn (r : Text) : Text := dropEnding ['\r'] r

/-- The records of a text. -/
def records (t : Text) : List Text :=
  match (splitOn '\n' t).getLast? with
  | some [] | none => (splitOn '\n' t).dropLast.map dropReturn
  | some last => (splitOn '\n' t).dropLast.map dropReturn ++ [last]

end Text

end Fanout
