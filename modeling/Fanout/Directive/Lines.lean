import Fanout.Fault.Basic
import Fanout.FileTree.Basic
import Fanout.Text.Record

/-!
# Files of lines

`readLines` gives one term for each record of a file. The file has to open, and its bytes have to
be text throughout.
-/

namespace Fanout

/-- The records of the file at a path. -/
def readLines (t : FileTree) (path : Text) : Except Fault (List Text) :=
  match t.open? path with
  | .error f => .error (.linesUnopened path f)
  | .ok entry =>
    match entry.bytes with
    | .error f => .error (.linesUnread path f)
    | .ok content =>
      match Text.ofUtf8? content with
      | some text => .ok text.records
      | none => .error (.linesUnread path .notUtf8)

end Fanout
