import Fanout.Proofs.Absorbing
import Mathlib.Data.List.TakeWhile

/-!
# Directories in front of a group

A directory written in front of a group, in one word, is quoted with the word. The path that the
group inherits then begins behind the last quote in the name of the directory, or at its start when
there is none. Blanks stop a path only where it does not begin as one: behind a quote in the name,
the path may begin behind a blank.

* `behindLast`: the part of a text behind the last of some characters.
* `inherited`: what a group inherits of the directory.
* `Reader.foldl_quotedBody`: what a reader has gathered of a quoted text.
* `read_directory`: the template of a command with such a word.
-/

namespace Fanout

/-! ## Endings -/

/-- The part of the text behind its last character with `p`. -/
def behindLast (p : Char → Bool) (t : Text) : Text := (t.reverse.takeWhile (!p ·)).reverse

section BehindLast

variable {p : Char → Bool} {t : Text}

theorem not_of_mem_behindLast {c : Char} (h : c ∈ behindLast p t) : p c = false := by
  have hkept := List.mem_takeWhile_imp (List.mem_reverse.mp h)
  simpa using hkept

theorem behindLast_of_forall (h : ∀ c ∈ t, p c = false) : behindLast p t = t := by
  have hall : t.reverse.takeWhile (!p ·) = t.reverse :=
    List.takeWhile_eq_self_iff.mpr fun c hc => by simp [h c (List.mem_reverse.mp hc)]
  rw [behindLast, hall, List.reverse_reverse]

theorem behindLast_concat (p : Char → Bool) (t : Text) (c : Char) :
    behindLast p (t ++ [c]) = if p c then [] else behindLast p t ++ [c] := by
  cases hc : p c <;> simp [behindLast, hc]

end BehindLast

/-- The character ends a run of text that a path can be. -/
def endsRun (c : Char) : Bool := isQuote c || Text.isBlank c

/-- What a group inherits of the directory in front of it in the same quoted word. -/
def inherited (d : Text) : Text := leadOf .single (behindLast isQuote d) (behindLast endsRun d)

theorem not_quote_of_mem_inherited {d : Text} {c : Char} (h : c ∈ inherited d) :
    isQuote c = false := by
  unfold inherited leadOf at h
  split_ifs at h
  · exact not_of_mem_behindLast h
  · have hrun : isQuote c = false ∧ Text.isBlank c = false := by
      simpa [endsRun] using not_of_mem_behindLast h
    exact hrun.1

/-- A directory at the root is inherited whole when it has no quote in it, and never otherwise. -/
theorem inherited_eq_iff {d : Text} (hroot : d.head? = some '/') :
    inherited d = d ↔ ∀ c ∈ d, isQuote c = false := by
  constructor
  · intro h c hc
    rw [← h] at hc
    exact not_quote_of_mem_inherited hc
  · intro h
    have hbegins : beginsAsPath d = true := by
      cases d with
      | nil => exact absurd hroot (by simp)
      | cons c u =>
        obtain rfl : c = '/' := Option.some.inj hroot
        rfl
    rw [inherited, leadOf, behindLast_of_forall h, hbegins]
    rfl

theorem slash_mem_inherited (d : Text) : '/' ∈ inherited (d ++ ['/']) := by
  have hend {p : Char → Bool} (hp : p '/' = false) : '/' ∈ behindLast p (d ++ ['/']) := by
    simp [behindLast_concat, hp]
  unfold inherited leadOf
  split_ifs
  · exact hend (by decide)
  · exact hend (by decide)

/-- Without an apostrophe there is none to read back. -/
theorem readApostrophes_of_not_mem {t : Text} (h : '\'' ∉ t) : readApostrophes t = t := by
  have hread := ShellWord.readApostrophes_quotedBody t
  rwa [ShellWord.quotedBody_of_not_mem h] at hread

/-! ## Reading -/

namespace Reader

variable {style : GroupStyle} {r : Reader}

/-- One character of a quoted text. A quote in it ends what may become the lead of a group, and a
blank does outside a path. -/
theorem foldl_quotedBody_singleton (hd : isDelimiter style.delimiter = true) (ho : r.opened = none)
    (hs : r.scanner = ⟨.single, false⟩) {c : Char} (hc : c ≠ style.delimiter) (hb : c ≠ '\\') :
    (ShellWord.quotedBody [c]).foldl (step style) r =
      { r with
        offset := r.offset + (ShellWord.quotedBody [c]).byteLength
        literal := (ShellWord.quotedBody [c]).reverse ++ r.literal
        quoted := if isQuote c then [] else c :: r.quoted
        run := if endsRun c then [] else c :: r.run } := by
  have ha := ne_apostrophe_of_isDelimiter hd
  have hback := ne_backslash_of_isDelimiter hd
  obtain ⟨scanner, offset, literal, quoted, run, opened, segments, groups⟩ := r
  obtain rfl : opened = none := ho
  obtain rfl : scanner = ⟨.single, false⟩ := hs
  by_cases hq : c = '\''
  · -- an apostrophe leaves the quotes, stands escaped, and enters them again
    subst hq
    have hblank : Text.isBlank '\\' = false := by decide
    simp [ShellWord.quotedBody, step, keep, stop, Scanner.next, Scanner.escapes,
      Scanner.closesSingle, QuoteContext.after, isQuote, endsRun, ha.symm, hback.symm, hblank,
      Nat.add_assoc]
  · cases hquote : isQuote c <;> cases hblank : Text.isBlank c <;>
      simp [ShellWord.quotedBody, step, keep, stop, Scanner.next, Scanner.escapes,
        Scanner.closesSingle, QuoteContext.after, endsRun, hq, hc, hb, hquote, hblank]

/-- The reader behind a quoted text at the beginning of its quotes. -/
def behindQuoted (r : Reader) (t : Text) : Reader :=
  { r with
    offset := r.offset + (ShellWord.quotedBody t).byteLength
    literal := (ShellWord.quotedBody t).reverse ++ r.literal
    quoted := (behindLast isQuote t).reverse
    run := (behindLast endsRun t).reverse }

/-- What may become the lead of a group begins behind the last quote in a quoted text. -/
theorem foldl_quotedBody (hd : isDelimiter style.delimiter = true) (ho : r.opened = none)
    (hs : r.scanner = ⟨.single, false⟩) (hquoted : r.quoted = []) (hrun : r.run = []) {t : Text}
    (ht : style.delimiter ∉ t) (hb : '\\' ∉ t) :
    (ShellWord.quotedBody t).foldl (step style) r = r.behindQuoted t := by
  induction t using List.reverseRecOn with
  | nil =>
    obtain ⟨scanner, offset, literal, quoted, run, opened, segments, groups⟩ := r
    obtain rfl : quoted = [] := hquoted
    obtain rfl : run = [] := hrun
    rfl
  | append_singleton t c ih =>
    rw [List.mem_append, List.mem_singleton, not_or] at ht hb
    have hlast := foldl_quotedBody_singleton (r := r.behindQuoted t) hd ho hs (Ne.symm ht.2)
      (Ne.symm hb.2)
    rw [ShellWord.quotedBody_append, List.foldl_append, ih ht.1 hb.1, hlast]
    simp only [behindQuoted, ShellWord.quotedBody_append, behindLast_concat]
    cases isQuote c <;> cases endsRun c <;> simp [Nat.add_assoc]

end Reader

/-! ## Directories -/

/-- The word with the directory in front of a search for all files in it. -/
def directoryWord (d : Text) : Text := d ++ "/@files:*@".toList

/-- The template of a command with that word. -/
def directoryTemplate (d : Text) : RawTemplate where
  segments := [.literal ("cat '".toList ++ ShellWord.quotedBody (d ++ ['/'])), .slot 0,
    .literal ['\'']]
  groups := [
    { hidden := false
      terms := ["files:*".toList]
      externalPath := some (inherited (d ++ ['/']))
      quote := .single
      start := 5 + (ShellWord.quotedBody (d ++ ['/'])).byteLength }]

/-- The asterisk puts quotes around the word. -/
theorem join_directoryWord (d : Text) : ShellWord.join ["cat".toList, directoryWord d] =
    "cat '".toList ++ (ShellWord.quotedBody (d ++ ['/']) ++
      '@' :: ("files:*".toList ++ ['@'] ++ ['\''])) := by
  have hspecial : ShellWord.isBare (directoryWord d) = false := by
    simp [ShellWord.isBare, directoryWord, ShellWord.isSpecial, ShellWord.specials]
  have hcat : ShellWord.quote "cat".toList = "cat".toList := by decide
  have hword : directoryWord d = (d ++ ['/']) ++ "@files:*@".toList := by
    simp [directoryWord]
  have hbody : ShellWord.quotedBody "@files:*@".toList = "@files:*@".toList := by decide
  rw [ShellWord.join, List.map_cons, List.map_singleton, Text.join_cons_cons, Text.join_singleton,
    hcat, ShellWord.quote, hspecial, if_neg (by decide), hword, ShellWord.quotedBody_append, hbody]
  simp

theorem close_directory (n : Nat) (d : Text) :
    OpenGroup.close {} ⟨n, .single, inherited (d ++ ['/']), "files:*".toList.reverse⟩ =
      { hidden := false, terms := ["files:*".toList], externalPath := some (inherited (d ++ ['/']))
        quote := .single, start := n } := by
  have hmarker : stripMarker ['-', ':'] "files:*".toList = (false, "files:*".toList) := by decide
  have hterms : Text.splitUnescaped ',' (unquoteBody .single "files:*".toList) =
      ["files:*".toList] := by decide
  simp only [OpenGroup.close, List.reverse_reverse, hmarker, hterms]
  simp [slash_mem_inherited]

/-- A directory at the root in front of a group, in one word: the command is read with this one
group, and the path it inherits is the directory with its slash, once its apostrophes are read back,
when the directory has no quote in it, and only then. -/
theorem read_directory {d : Text} (hroot : d.head? = some '/')
    (hplain : ∀ c ∈ d, c ≠ '@' ∧ c ≠ '\\') :
    RawTemplate.read {} (ShellWord.join ["cat".toList, directoryWord d]) =
        .ok (directoryTemplate d) ∧
      (readApostrophes (inherited (d ++ ['/'])) = d ++ ['/'] ↔ ∀ c ∈ d, isQuote c = false) := by
  have hd : isDelimiter ({} : GroupStyle).delimiter = true := by decide
  have hat : '@' ∉ d ++ ['/'] := by
    simpa using fun h => (hplain _ h).1 rfl
  have hback : '\\' ∉ d ++ ['/'] := by
    simpa using fun h => (hplain _ h).2 rfl
  have hcontent : Text.Lacks '@' false "files:*".toList := Text.lacks_of_not_mem (by decide) _
  refine ⟨?_, ?_⟩
  · -- the opening of the line, the directory, and the group behind it
    let r : Reader := { scanner := ⟨.single, false⟩, offset := 5, literal := "cat '".toList.reverse }
    have hstart : "cat '".toList.foldl (Reader.step {}) {} = r := by decide
    have hdirectory := Reader.foldl_quotedBody (r := r) hd rfl rfl rfl rfl hat hback
    have hopen := Reader.step_lead (r := r.behindQuoted (d ++ ['/'])) hd rfl rfl
    have hlead : leadOf (r.behindQuoted (d ++ ['/'])).scanner.context
        (r.behindQuoted (d ++ ['/'])).quoted.reverse (r.behindQuoted (d ++ ['/'])).run.reverse =
          inherited (d ++ ['/']) := by
      simp [Reader.behindQuoted, inherited, r]
    rw [hlead] at hopen
    rw [join_directoryWord, RawTemplate.read, List.foldl_append, hstart, List.foldl_append,
      hdirectory, List.foldl_cons, hopen, List.foldl_append,
      Reader.foldl_close hd rfl rfl hcontent (by decide),
      Reader.finish_literal hd rfl (Text.lacks_of_not_mem (by decide) _)]
    have hclose := close_directory (5 + (ShellWord.quotedBody (d ++ ['/'])).byteLength) d
    simpa [directoryTemplate, Reader.behindQuoted, r] using hclose
  · have hnone : '\'' ∉ inherited (d ++ ['/']) := fun h =>
      absurd (not_quote_of_mem_inherited h) (by decide)
    have hhead : (d ++ ['/']).head? = some '/' := by
      cases d with
      | nil => rfl
      | cons c u => exact hroot
    have hslash : isQuote '/' = false := by decide
    rw [readApostrophes_of_not_mem hnone, inherited_eq_iff hhead, List.forall_mem_append]
    simp [hslash]

/-- A blank in the name is kept. -/
theorem read_directory_blank : "/a b".toList.head? = some '/' ∧
    (∀ c ∈ "/a b".toList, c ≠ '@' ∧ c ≠ '\\') ∧
      RawTemplate.read {} (ShellWord.join ["cat".toList, directoryWord "/a b".toList]) =
        .ok (directoryTemplate "/a b".toList) ∧
      readApostrophes (inherited ("/a b".toList ++ ['/'])) = "/a b".toList ++ ['/'] := by
  have hroot : "/a b".toList.head? = some '/' := by decide
  have hplain : ∀ c ∈ "/a b".toList, c ≠ '@' ∧ c ≠ '\\' := by simp
  obtain ⟨hread, hwhole⟩ := read_directory hroot hplain
  exact ⟨hroot, hplain, hread, hwhole.mpr (by simp [isQuote])⟩

/-- A quote in the name cuts it off, with everything in front. -/
theorem read_directory_quote :
    RawTemplate.read {} (ShellWord.join ["cat".toList, directoryWord "/a'b".toList]) =
      .ok { segments := [.literal "cat '/a'\\''b/".toList, .slot 0, .literal ['\'']]
            groups := [
              { hidden := false
                terms := ["files:*".toList]
                externalPath := some "b/".toList
                quote := .single
                start := 13 }] } ∧
      readApostrophes "b/".toList ≠ "/a'b/".toList := by
  have hread : RawTemplate.read {}
      (ShellWord.join ["cat".toList, directoryWord "/a'b".toList]) =
        .ok { segments := [.literal "cat '/a'\\''b/".toList, .slot 0, .literal ['\'']]
              groups := [⟨false, ["files:*".toList], some "b/".toList, .single, 13⟩] } := by cbv
  exact ⟨hread, by decide⟩

end Fanout
