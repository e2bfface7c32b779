import Fanout.Directive.Expansion
import Fanout.Proofs.Pieces
import Fanout.Proofs.Ranges
import Fanout.Proofs.Walks

/-!
# Files of records

What was written to a file record by record is read back record by record. A record is ended by a
newline, with or without a carriage return in front; the last one needs no end unless it is empty.
A file whose bytes are no text gives no records at all.

* `RecordEnd`, `writeRecords`: how records are put into a file.
* `IsRecord`: the texts that come back. A newline would part one, and a carriage return at its end
  would be taken for a part of its end.
* `records_cons`: the first record of a text; `records_writeRecords`: all of them.
* `ofUtf8?_eq_some_iff`: which bytes are text.
* `readLines_written`: a file, read by itself and for the term that names it.
-/

namespace Fanout

namespace Text

/-- How a record is ended: by a newline, or by a carriage return and a newline. -/
inductive RecordEnd where
  | newline
  | returnNewline
  deriving DecidableEq, Repr

/-- The characters of the end. -/
def RecordEnd.text : RecordEnd → Text
  | .newline => ['\n']
  | .returnNewline => ['\r', '\n']

/-- Records one after another, each with its end, and behind them a record without one. -/
def writeRecords (ended : List (Text × RecordEnd)) (last : Option Text) : Text :=
  (ended.flatMap fun x => x.1 ++ x.2.text) ++ last.getD []

/-- The records that were written. -/
def writtenRecords (ended : List (Text × RecordEnd)) (last : Option Text) : List Text :=
  ended.map Prod.fst ++ last.toList

/-- The text has no newline in it, and no carriage return at its end. -/
structure IsRecord (r : Text) : Prop where
  newline : '\n' ∉ r
  unreturned : r.getLast? ≠ some '\r'

theorem dropReturn_of_getLast? {r : Text} (h : r.getLast? ≠ some '\r') : dropReturn r = r := by
  have hsuffix : ¬(['\r'] : Text) <:+ r := by
    rintro ⟨u, rfl⟩
    exact h List.getLast?_concat
  rw [dropReturn, dropEnding, if_neg (by simpa using hsuffix)]

/-- A newline ends the first record, and what stands behind it has the others. -/
theorem records_cons {r : Text} (h : '\n' ∉ r) (t : Text) :
    records (r ++ '\n' :: t) = dropReturn r :: records t := by
  have hsplit : splitOn '\n' (r ++ '\n' :: t) = r :: splitOn '\n' t := by
    rw [splitOn_append_sep, splitOn_of_not_mem h, List.singleton_append]
  have hne := splitOn_ne_nil '\n' t
  have hlast : (r :: splitOn '\n' t).getLast? = (splitOn '\n' t).getLast? := by
    rw [List.getLast?_cons, List.getLast?_eq_some_getLast hne, Option.getD_some]
  rw [records, records, hsplit, hlast, List.dropLast_cons_of_ne_nil hne]
  split <;> rfl

theorem records_of_not_mem {r : Text} (h : '\n' ∉ r) (hne : r ≠ []) : records r = [r] := by
  rw [records, splitOn_of_not_mem h]
  cases r with
  | nil => exact absurd rfl hne
  | cons c r => rfl

/-- A record and its end are read as the record. -/
theorem records_append_end {r : Text} (h : IsRecord r) (e : RecordEnd) (t : Text) :
    records (r ++ e.text ++ t) = r :: records t := by
  cases e with
  | newline =>
    have htext : r ++ RecordEnd.newline.text ++ t = r ++ '\n' :: t := by simp [RecordEnd.text]
    rw [htext, records_cons h.newline, dropReturn_of_getLast? h.unreturned]
  | returnNewline =>
    have htext : r ++ RecordEnd.returnNewline.text ++ t = (r ++ ['\r']) ++ '\n' :: t := by
      simp [RecordEnd.text]
    have hnot : '\n' ∉ r ++ ['\r'] := by simp [h.newline]
    rw [htext, records_cons hnot, dropReturn, dropEnding_append]

theorem records_writeRecords {ended : List (Text × RecordEnd)} {last : Option Text}
    (hended : ∀ x ∈ ended, IsRecord x.1) (hlast : ∀ r ∈ last, IsRecord r ∧ r ≠ []) :
    records (writeRecords ended last) = writtenRecords ended last := by
  induction ended with
  | nil =>
    cases last with
    | none => rfl
    | some r =>
      obtain ⟨hr, hne⟩ := hlast r rfl
      exact records_of_not_mem hr.newline hne
  | cons x ended ih =>
    obtain ⟨hx, hended⟩ := List.forall_mem_cons.mp hended
    have htext : writeRecords (x :: ended) last = x.1 ++ x.2.text ++ writeRecords ended last := by
      simp [writeRecords]
    rw [htext, records_append_end hx, ih hended]
    rfl

theorem ofUtf8?_eq_some_iff {b : ByteArray} {t : Text} : ofUtf8? b = some t ↔ b = toUtf8 t := by
  constructor
  · intro h
    obtain ⟨cs, hcs, rfl⟩ := Option.map_eq_some_iff.mp h
    have hencode := @ByteArray.utf8Encode_get_utf8Decode? b (by rw [hcs, Option.isSome_some])
    simp only [hcs, Option.get_some] at hencode
    rw [toUtf8, String.toUTF8_eq_toByteArray, String.toByteArray_ofList, hencode]
  · rintro rfl
    exact ofUtf8?_toUtf8 t

end Text

/-- A term that names a file of lines asks for it. -/
theorem ofTerm_lines (path : Text) :
    Directive.ofTerm ("lines:".toList ++ path) = .lines path := by
  have hrange : readRange? ("lines:".toList ++ path) = none := readRange?_cons (by decide) _
  have hafter : Text.after? "lines:".toList ("lines:".toList ++ path) = some path :=
    Text.after?_eq_some_iff.mpr rfl
  rw [Directive.ofTerm, hrange, hafter]

/-- What a term with a file of lines expands to is what the file has. -/
theorem expandTerm_lines {path : Text} (h : '\\' ∉ path) (t : FileTree) (d : Char)
    (external : Option Text) :
    expandTerm t d external ("lines:".toList ++ path) =
      Stop.lift ((readLines t path).map fun values => ⟨values, false, false⟩) := by
  have hterm : Text.unescapeStructural d ("lines:".toList ++ path) = "lines:".toList ++ path := by
    apply Text.unescape_of_not_mem
    simp [h]
  simp only [expandTerm, hterm, ofTerm_lines]
  cases readLines t path <;> rfl

/-- The records that were written to a file are read back, by the file itself and by the term that
names it; from bytes that are no text, none are. -/
theorem readLines_written {t : FileTree} {path : Text} {content : ByteArray}
    (hopen : t.open? path = .ok (.file content)) :
    (∀ ended last, (∀ x ∈ ended, Text.IsRecord x.1) → (∀ r ∈ last, Text.IsRecord r ∧ r ≠ []) →
      content = Text.toUtf8 (Text.writeRecords ended last) →
        readLines t path = .ok (Text.writtenRecords ended last) ∧
        ('\\' ∉ path → ∀ d external, expandTerm t d external ("lines:".toList ++ path) =
          .ok { values := Text.writtenRecords ended last, nodes := false, absorbed := false })) ∧
    ((∀ text, content ≠ Text.toUtf8 text) →
      ∃ f, f.kind = .lines ∧ readLines t path = .error f ∧
        ('\\' ∉ path → ∀ d external,
          expandTerm t d external ("lines:".toList ++ path) = .error (.fault f))) := by
  constructor
  · rintro ended last hended hlast rfl
    have hlines : readLines t path = .ok (Text.writtenRecords ended last) := by
      simp [readLines, hopen, Entry.bytes, Text.ofUtf8?_toUtf8,
        Text.records_writeRecords hended hlast]
    refine ⟨hlines, fun hpath d external => ?_⟩
    rw [expandTerm_lines hpath, hlines]
    rfl
  · intro hbytes
    have hnone : Text.ofUtf8? content = none := by
      by_contra hsome
      obtain ⟨text, htext⟩ := Option.ne_none_iff_exists'.mp hsome
      exact hbytes text (Text.ofUtf8?_eq_some_iff.mp htext)
    have hlines : readLines t path = .error (.linesUnread path .notUtf8) := by
      simp [readLines, hopen, Entry.bytes, hnone]
    refine ⟨.linesUnread path .notUtf8, rfl, hlines, fun hpath d external => ?_⟩
    rw [expandTerm_lines hpath, hlines]
    rfl

/-- Empty records, a carriage return inside one, and both kinds of ends. -/
def mixedRecords : List (Text × Text.RecordEnd) :=
  [([], .newline), ("a\rb".toList, .returnNewline), ([], .returnNewline), ("@1@,".toList, .newline)]

/-- Text, and on the second line a byte that no text has. -/
def brokenBytes : ByteArray := ⟨#[0x61, 0x0a, 0xff]⟩

/-- The tree with a file of each. -/
def recordTree : FileTree where
  entries := [([['f']], .file (Text.toUtf8 (Text.writeRecords mixedRecords (some ['é'])))),
    ([['g']], .file brokenBytes)]
  workingDir := []

theorem open?_recordTree {c : Char} {content : ByteArray} (hc : c = 'f' ∨ c = 'g')
    (hnode : recordTree.nodeAt? [[c]] = some (.file content)) :
    recordTree.open? [c] = .ok (.file content) := by
  have hresolve : recordTree.resolve [c] true = .ok [[c]] := by
    have hwalk : recordTree.walk true FileTree.maxLinks [] [[c]] = .ok [[c]] :=
      FileTree.walk_name rfl (by rcases hc with rfl | rfl <;> decide) (by simp)
        (by rcases hc with rfl | rfl <;> decide) hnode (by simp)
    refine FileTree.resolve_eq_ok.mpr ⟨?_, by simp, ?_, ?_⟩
    · rcases hc with rfl | rfl <;> decide
    · rcases hc with rfl | rfl <;> decide
    · rcases hc with rfl | rfl <;> exact hwalk
  exact FileTree.open?_of_resolve hresolve (by simp [recordTree]) hnode

theorem readLines_mixedRecords :
    (recordTree.open? ['f'] =
        .ok (.file (Text.toUtf8 (Text.writeRecords mixedRecords (some ['é'])))) ∧
      readLines recordTree ['f'] = .ok [[], "a\rb".toList, [], "@1@,".toList, ['é']] ∧
      expandTerm recordTree '@' none "lines:f".toList =
        .ok ⟨[[], "a\rb".toList, [], "@1@,".toList, ['é']], false, false⟩) ∧
    (recordTree.open? ['g'] = .ok (.file brokenBytes) ∧
      (∀ text, brokenBytes ≠ Text.toUtf8 text) ∧
      ∃ f, f.kind = .lines ∧ readLines recordTree ['g'] = .error f ∧
        expandTerm recordTree '@' none "lines:g".toList = .error (.fault f)) := by
  have hopen : recordTree.open? ['f'] =
      .ok (.file (Text.toUtf8 (Text.writeRecords mixedRecords (some ['é'])))) :=
    open?_recordTree (.inl rfl) rfl
  have hbroken : recordTree.open? ['g'] = .ok (.file brokenBytes) :=
    open?_recordTree (.inr rfl) rfl
  have hbytes : ∀ text, brokenBytes ≠ Text.toUtf8 text := by
    intro text h
    have hnone : Text.ofUtf8? brokenBytes = none := by decide +kernel
    rw [Text.ofUtf8?_eq_some_iff.mpr h] at hnone
    exact absurd hnone (by simp)
  have hrecords : ∀ x ∈ mixedRecords, Text.IsRecord x.1 := by
    simp only [mixedRecords, List.forall_mem_cons]
    refine ⟨?_, ?_, ?_, ?_, by simp⟩ <;> constructor <;> decide
  have hlast : ∀ r ∈ some ['é'], Text.IsRecord r ∧ r ≠ [] := by
    intro r hr
    obtain rfl : ['é'] = r := Option.mem_some_iff.mp hr
    refine ⟨⟨?_, ?_⟩, ?_⟩ <;> decide
  obtain ⟨hlines, hterm⟩ := (readLines_written hopen).1 mixedRecords (some ['é']) hrecords hlast rfl
  obtain ⟨f, hkind, herror, hterm'⟩ := (readLines_written hbroken).2 hbytes
  exact ⟨⟨hopen, hlines, hterm (by decide) '@' none⟩,
    hbroken, hbytes, f, hkind, herror, hterm' (by decide) '@' none⟩

end Fanout
