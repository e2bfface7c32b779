import Fanout.Batch.Command
import Fanout.Machine.Script.Reader
import Fanout.Machine.Script.Substitution
import Fanout.Proofs.Pieces
import Fanout.Proofs.Words

/-!
# Quoted words in scripts

The shell of a machine reads scripts by rules of its own. What is written for a shell word by word,
this one reads back: the line is one command, and its words stand for the words they were made of,
whatever the state of the shell. So it is with the script that pipes an input into a command.

* `ShellWord.spelled`: what a shell sees of a quoted word.
* `Word.read_quote`: the next word of a text that begins with a quoted one.
* `Word.args_spelled`: such a word stands for the word that was quoted.
* `Script.readLine_join`: a line of quoted words.
* `Script.readLine_script`: the line that runs a command with input.
-/

namespace Fanout

namespace Text

theorem takeWhile_append_of_head {p : Char → Bool} {t rest : Text} (ht : ∀ c ∈ t, p c = true)
    (hrest : ∀ c ∈ rest.head?, p c = false) : (t ++ rest).takeWhile p = t := by
  rw [List.takeWhile_append_of_pos ht]
  cases rest with
  | nil => simp
  | cons c rest => simp [hrest c rfl]

end Text

namespace ShellWord

/-- The parts that a shell sees in a quoted word: text between quotes, and apostrophes. -/
def spelled (w : Text) : Word :=
  if isBare w then [.plain w] else ((Text.splitOn '\'' w).intersperse ['\'']).map .quoted

/-- Quoted words, each with a blank in front. -/
def led (ws : List Text) : Text := ws.flatMap fun w => ' ' :: quote w

theorem join_cons (w : Text) (ws : List Text) : join (w :: ws) = quote w ++ led ws := by
  induction ws generalizing w with
  | nil => simp [join, Text.join, led]
  | cons v ws ih =>
    have hjoin : join (w :: v :: ws) = quote w ++ ([' '] ++ join (v :: ws)) :=
      Text.join_cons_cons [' '] (quote w) (quote v) (ws.map quote)
    rw [hjoin, ih]
    simp [led]

theorem ne_nil_of_isBare {w : Text} (h : isBare w = true) : w ≠ [] := by
  rintro rfl
  exact absurd h (by simp [isBare])

theorem quote_of_bare {w : Text} (h : isBare w = true) : quote w = w := by
  simp [quote, h]

theorem quote_of_not_bare {w : Text} (h : isBare w = false) :
    quote w = '\'' :: (quotedBody w ++ ['\'']) := by
  simp [quote, h]

/-- A quoted word begins with a quote, or else with a character that means nothing to a shell. -/
theorem quote_eq_cons (w : Text) : ∃ c t, quote w = c :: t ∧ (c = '\'' ∨ c ∉ specials) := by
  cases hbare : isBare w with
  | false => exact ⟨'\'', _, quote_of_not_bare hbare, .inl rfl⟩
  | true =>
    obtain ⟨c, t, rfl⟩ := List.exists_cons_of_ne_nil (ne_nil_of_isBare hbare)
    exact ⟨c, t, quote_of_bare hbare, .inr (not_special_of_isBare hbare List.mem_cons_self)⟩

theorem isSpecial_bare {c : Char} (h : c ∉ specials) : Enclosure.bare.isSpecial c = false := by
  simp only [specials, List.mem_cons, List.not_mem_nil, or_false, not_or] at h
  simp [Enclosure.isSpecial, Enclosure.endsAt, Enclosure.isQuoted, endsWord, h]

theorem endsWord_of_not_special {c : Char} (h : c ∉ specials) : endsWord c = false := by
  simp only [specials, List.mem_cons, List.not_mem_nil, or_false, not_or] at h
  simp [endsWord, h]

end ShellWord

open ShellWord

/-! ## Reading a word -/

namespace Word

/-- A word ends in front of the text: it is empty or begins with a blank. -/
def Ends (t : Text) : Prop := ∀ c ∈ t.head?, c = ' '

section Reading

variable (skipScript : ScriptSkipper) {rest : Text}

theorem readParts_ends (h : Ends rest) (n : Nat) :
    readParts skipScript (n + 1) .bare rest = .ok ([], rest) := by
  cases rest with
  | nil => simp [readParts, Enclosure.atEnd]
  | cons c t =>
    obtain rfl : c = ' ' := h c rfl
    simp [readParts, Enclosure.endsAt, endsWord]

theorem readParts_bare {w : Text} (hw : isBare w = true) (h : Ends rest) (n : Nat) :
    readParts skipScript (n + 2) .bare (w ++ rest) = .ok ([.plain w], rest) := by
  obtain ⟨c, w, rfl⟩ := List.exists_cons_of_ne_nil (ne_nil_of_isBare hw)
  have hspecial {d : Char} (hd : d ∈ c :: w) : d ∉ specials := not_special_of_isBare hw hd
  have hrun : (w ++ rest).takeWhile (fun d => !Enclosure.bare.isSpecial d) = w :=
    Text.takeWhile_append_of_head
      (fun d hd => by rw [isSpecial_bare (hspecial (List.mem_cons_of_mem c hd)), Bool.not_false])
      fun d hd => by rw [h d hd]; decide
  have hc : c ∉ specials := hspecial List.mem_cons_self
  have hends := endsWord_of_not_special hc
  simp only [specials, List.mem_cons, List.not_mem_nil, or_false, not_or] at hc
  rw [List.cons_append, readParts.eq_def]
  simp [Enclosure.endsAt, Enclosure.isQuoted, Enclosure.text, hrun, hends, hc,
    readParts_ends skipScript h n, bind, Except.bind]

theorem readParts_quoted {p : Text} (hp : '\'' ∉ p) {n : Nat} {t : Text} {parts : Word}
    (h : readParts skipScript n .bare t = .ok (parts, rest)) :
    readParts skipScript (n + 1) .bare ('\'' :: (p ++ '\'' :: t)) =
      .ok (.quoted p :: parts, rest) := by
  have hbody : (p ++ '\'' :: t).takeWhile (fun d => !decide (d = '\'')) = p :=
    Text.takeWhile_append_of_head (fun d hd => by simpa using ne_of_mem_of_not_mem hd hp) (by simp)
  rw [readParts.eq_def]
  simp [Enclosure.endsAt, endsWord, Enclosure.isQuoted, hbody, h, bind, Except.bind]

theorem readParts_escaped {n : Nat} {t : Text} {parts : Word}
    (h : readParts skipScript n .bare t = .ok (parts, rest)) :
    readParts skipScript (n + 1) .bare ('\\' :: '\'' :: t) =
      .ok (.quoted ['\''] :: parts, rest) := by
  rw [readParts.eq_def]
  simp [Enclosure.endsAt, endsWord, Enclosure.isQuoted, Enclosure.isEscapable, h, bind, Except.bind]

/-- Pieces between quotes and the apostrophes between them. -/
theorem readParts_pieces (h : Ends rest) {ps : List Text} (hne : ps ≠ [])
    (hps : ∀ p ∈ ps, '\'' ∉ p) {n : Nat}
    (hn : (quotedBody (Text.join ['\''] ps)).length + 2 ≤ n) :
    readParts skipScript n .bare ('\'' :: (quotedBody (Text.join ['\''] ps) ++ '\'' :: rest)) =
      .ok ((ps.intersperse ['\'']).map .quoted, rest) := by
  induction ps generalizing n with
  | nil => exact absurd rfl hne
  | cons p ps ih =>
    obtain ⟨hp, hps⟩ := List.forall_mem_cons.mp hps
    cases ps with
    | nil =>
      obtain ⟨n, rfl⟩ := Nat.exists_eq_add_of_le' (Nat.le_of_add_left_le hn)
      rw [Text.join_singleton, quotedBody_of_not_mem hp]
      exact readParts_quoted skipScript hp (readParts_ends skipScript h n)
    | cons q ps =>
      rw [Text.join_cons_cons, List.singleton_append, quotedBody_append, quotedBody_apostrophe,
        quotedBody_of_not_mem hp] at hn ⊢
      obtain ⟨n, rfl⟩ : ∃ m, n = m + 2 := ⟨n - 2, by omega⟩
      have hrest := ih (List.cons_ne_nil q ps) hps (n := n) (by simp at hn ⊢; omega)
      have hmark := readParts_quoted skipScript hp (readParts_escaped skipScript hrest)
      simpa using hmark

theorem readParts_quote (w : Text) (h : Ends rest) {n : Nat} (hn : (quote w).length < n) :
    readParts skipScript n .bare (quote w ++ rest) = .ok (spelled w, rest) := by
  cases hbare : isBare w with
  | false =>
    have hjoin : Text.join ['\''] (Text.splitOn '\'' w) = w := Text.intercalate_splitOn '\'' w
    rw [quote_of_not_bare hbare] at hn ⊢
    have hlength : (quotedBody w).length + 2 ≤ n := by
      simp only [List.length_cons, List.length_append, List.length_nil] at hn
      omega
    have hpieces := readParts_pieces skipScript h (Text.splitOn_ne_nil '\'' w)
      (fun p hp => Text.not_mem_of_mem_splitOn hp) (n := n) (by rwa [hjoin])
    rw [hjoin] at hpieces
    simpa [spelled, hbare] using hpieces
  | true =>
    have hpos := List.length_pos_of_ne_nil (ne_nil_of_isBare hbare)
    rw [quote_of_bare hbare] at hn ⊢
    obtain ⟨n, rfl⟩ := Nat.exists_eq_add_of_le' (show 2 ≤ n by omega)
    rw [readParts_bare skipScript hbare h n, spelled, if_pos hbare]

/-- A quoted word is read up to its end. -/
theorem read_quote (w : Text) (h : Ends rest) {n : Nat} (hn : (quote w).length < n) :
    Word.read skipScript n (quote w ++ rest) = .ok (some (spelled w), rest) := by
  have hparts := readParts_quote skipScript w h hn
  obtain ⟨c, t, hquote, hc⟩ := quote_eq_cons w
  have hends : endsWord c = false := by
    rcases hc with rfl | hc
    · decide
    · exact endsWord_of_not_special hc
  rw [hquote, List.cons_append] at hparts ⊢
  simp [Word.read, hends, hparts, bind, Except.bind]

end Reading

/-! ## What a word stands for -/

/-- The parts of a word that is not bare are text between quotes. -/
theorem spelled_of_not_bare {w : Text} (h : isBare w = false) :
    ∃ ps : List Text, spelled w = ps.map .quoted ∧ ps ≠ [] ∧ ps.flatten = w := by
  refine ⟨(Text.splitOn '\'' w).intersperse ['\''], by simp [spelled, h], ?_, ?_⟩
  · intro hnil
    have hne := Text.splitOn_ne_nil '\'' w
    cases hsplit : Text.splitOn '\'' w with
    | nil => exact hne hsplit
    | cons p ps =>
      rw [hsplit] at hnil
      cases ps <;> simp at hnil
  · exact Text.intercalate_splitOn '\'' w

theorem spelled_of_bare {w : Text} (h : isBare w = true) : spelled w = [.plain w] := by
  simp [spelled, h]

/-- A quoted word sets no variable, be there an equals sign in it. -/
theorem assignment?_spelled (w : Text) : (spelled w).assignment? = none := by
  cases hbare : isBare w with
  | false =>
    obtain ⟨ps, hparts, hne, -⟩ := spelled_of_not_bare hbare
    rw [hparts]
    cases ps with
    | nil => exact absurd rfl hne
    | cons p ps => rfl
  | true =>
    rw [spelled_of_bare hbare, assignment?]
    have hequals : '=' ∉ w := fun hmem => not_special_of_isBare hbare hmem (by decide)
    split
    · next value hdrop =>
      have hmem : '=' ∈ w.drop (w.takeWhile inName).length := by rw [hdrop]; simp
      exact absurd (List.mem_of_mem_drop hmem) hequals
    · rfl

section Expanding

variable (host : ShellHost) {s : ShellState} (hs : s.isHalted = false)

include hs

theorem expand_plain (w : Text) :
    Word.expand host [.plain w] s = (w.map (.char · false false), s) := by
  simp [Word.expand, WordPart.expand, hs]

theorem expand_quoted (ps : List Text) :
    Word.expand host (ps.map .quoted) s = (ps.flatMap (valueAtoms true), s) := by
  induction ps with
  | nil => rfl
  | cons p ps ih =>
    rw [List.map_cons, Word.expand]
    · simp [WordPart.expand, hs, ih]
    · cases ps <;> simp

end Expanding

end Word

/-! ## Arguments -/

section Arguments

variable (separators : Text)

/-- Characters that do not part arguments make the last one longer. -/
theorem argumentsFrom_text (quoted : Bool) (t : Text) (a : Argument) (rest : List Atom) :
    argumentsFrom separators (some a) false (t.map (.char · quoted false) ++ rest) =
      argumentsFrom separators (some ((t.map (·, quoted)).reverse ++ a)) false rest := by
  induction t generalizing a with
  | nil => rfl
  | cons c t ih =>
    have hstep : argumentsFrom separators (some a) false
        (.char c quoted false :: (t.map (.char · quoted false) ++ rest)) =
          argumentsFrom separators (some ((c, quoted) :: a)) false
            (t.map (.char · quoted false) ++ rest) := by
      simp [argumentsFrom]
    rw [List.map_cons, List.cons_append, hstep, ih]
    simp

theorem arguments_plain {w : Text} (hne : w ≠ []) :
    arguments separators (w.map (.char · false false)) = [w.map (·, false)] := by
  cases w with
  | nil => exact absurd rfl hne
  | cons c w =>
    have hrest := argumentsFrom_text separators false w [(c, false)] []
    rw [List.append_nil] at hrest
    simp [arguments, argumentsFrom, hrest]

theorem argumentsFrom_quoted (a : Argument) (ps : List Text) :
    argumentsFrom separators (some a) false (ps.flatMap (valueAtoms true)) =
      [a.reverse ++ ps.flatten.map (·, true)] := by
  induction ps generalizing a with
  | nil => simp [argumentsFrom]
  | cons p ps ih =>
    have hmark : argumentsFrom separators (some a) false ((p :: ps).flatMap (valueAtoms true)) =
        argumentsFrom separators (some a) false
          (p.map (.char · true false) ++ ps.flatMap (valueAtoms true)) := by
      simp [valueAtoms, argumentsFrom]
    rw [hmark, argumentsFrom_text, ih]
    simp

theorem arguments_quoted {ps : List Text} (hne : ps ≠ []) :
    arguments separators (ps.flatMap (valueAtoms true)) = [ps.flatten.map (·, true)] := by
  cases ps with
  | nil => exact absurd rfl hne
  | cons p ps =>
    have hmark : arguments separators ((p :: ps).flatMap (valueAtoms true)) =
        argumentsFrom separators (some []) false ((p :: ps).flatMap (valueAtoms true)) := by
      simp [arguments, valueAtoms, argumentsFrom]
    rw [hmark, argumentsFrom_quoted]
    rfl

end Arguments

namespace Word

variable (host : ShellHost) {s : ShellState}

theorem withHomes_spelled (w : Text) (home : Option Text) :
    (spelled w).withHomes home false = spelled w := by
  cases hbare : isBare w with
  | false =>
    obtain ⟨ps, hparts, -, -⟩ := spelled_of_not_bare hbare
    rw [hparts]
    cases ps <;> rfl
  | true =>
    have htilde : '~' ∉ w := fun hmem => not_special_of_isBare hbare hmem (by decide)
    rw [spelled_of_bare hbare, withHomes, if_neg (by simpa using htilde)]

theorem text_map (quoted : Bool) (t : Text) : Argument.text (t.map (·, quoted)) = t := by
  simp [Argument.text, Function.comp_def]

/-- The atoms of a quoted word are those of one argument, in which nothing is a wildcard. -/
theorem exists_argument_spelled (hs : s.isHalted = false) (w : Text) :
    ∃ atoms quoted, Word.expand host (spelled w) s = (atoms, s) ∧
      arguments s.separators atoms = [w.map (·, quoted)] ∧
      Argument.isPattern (w.map (·, quoted)) = false := by
  cases hbare : isBare w with
  | false =>
    obtain ⟨ps, hparts, hne, rfl⟩ := spelled_of_not_bare hbare
    rw [hparts]
    exact ⟨_, true, expand_quoted host hs ps, arguments_quoted _ hne, by simp [Argument.isPattern]⟩
  | true =>
    have hplain : ∀ c ∈ w, c ≠ '*' ∧ c ≠ '?' ∧ c ≠ '[' := by
      intro c hc
      have hspecial := not_special_of_isBare hbare hc
      refine ⟨?_, ?_, ?_⟩ <;> rintro rfl <;> exact hspecial (by decide)
    rw [spelled_of_bare hbare]
    refine ⟨_, false, expand_plain host hs w, arguments_plain _ (ne_nil_of_isBare hbare), ?_⟩
    simpa [Argument.isPattern, and_assoc] using hplain

/-- A quoted word stands for the word, as a single argument, in every shell that is at work. -/
theorem args_spelled (hs : s.isHalted = false) (w : Text) :
    Word.args host (spelled w) s = ([w], s) := by
  obtain ⟨atoms, quoted, hexpand, hargument, hpattern⟩ := exists_argument_spelled host hs w
  have htext := text_map quoted w
  simp [args, withHomes_spelled, hexpand, hargument, Argument.paths, hpattern, htext, hs]

end Word

/-- Quoted words stand for the words, in every shell that is at work. -/
theorem expandArguments_spelled (host : ShellHost) {s : ShellState} (hs : s.isHalted = false)
    (known ws : List Text) : expandArguments host known (ws.map spelled) s = (ws, s) := by
  induction ws generalizing known with
  | nil => rfl
  | cons w ws ih =>
    rw [List.map_cons, expandArguments]
    simp [Word.assignment?_spelled, Word.args_spelled host hs, hs, ih]

/-! ## Reading a command -/

namespace Script

open Word (Ends)

/-- A command ends in front of the text: there is nothing, or a pipe behind a blank. -/
inductive EndsCommand : Text → Prop
  | atEnd : EndsCommand []
  | atPipe (t : Text) : EndsCommand (' ' :: '|' :: t)

theorem ends_led {rest : Text} (h : EndsCommand rest) (ws : List Text) : Ends (led ws ++ rest) := by
  cases ws with
  | nil => cases h <;> simp [led, Ends]
  | cons w ws => simp [led, Ends]

/-- A quoted word begins with none of some characters that mean something to a shell. -/
theorem exists_quote_append (w rest : Text) (cs : List Char)
    (hcs : ∀ c ∈ cs, c ∈ specials ∧ c ≠ '\'') :
    ∃ c t, quote w ++ rest = c :: t ∧ c ∉ cs := by
  obtain ⟨c, t, hquote, hc⟩ := quote_eq_cons w
  refine ⟨c, t ++ rest, by rw [hquote, List.cons_append], fun hmem => ?_⟩
  rcases hc with rfl | hc
  · exact (hcs _ hmem).2 rfl
  · exact hc (hcs _ hmem).1

theorem skipBlanks_quote (w rest : Text) : skipBlanks (quote w ++ rest) = quote w ++ rest := by
  obtain ⟨c, t, htext, hc⟩ :=
    exists_quote_append w rest [' ', '\t', '\\', '#'] (by simp [specials])
  simp only [List.mem_cons, List.not_mem_nil, or_false, not_or] at hc
  rw [htext, skipBlanks.eq_def]
  split <;> simp_all

theorem skipLines_quote (w rest : Text) : skipLines false (quote w ++ rest) = quote w ++ rest := by
  obtain ⟨c, t, htext, hc⟩ :=
    exists_quote_append w rest ['\n', ' ', '\t', '\\', '#'] (by simp [specials])
  simp only [List.mem_cons, List.not_mem_nil, or_false, not_or] at hc
  rw [htext, skipLines.eq_def]
  split <;> simp_all

/-- A quoted word is no reserved word, unless the word is one. -/
theorem keyword?_quote {w : Text} (hfree : reservedWords.contains (String.ofList w) = false)
    {rest : Text} (h : Ends rest) : keyword? (quote w ++ rest) = none := by
  rw [keyword?]
  cases hbare : isBare w with
  | false =>
    have hreserved (t : Text) : reservedWords.contains (String.ofList ('\'' :: t)) = false := by
      rw [List.contains_eq_any_beq, List.any_eq_false]
      intro r hr hequal
      have hhead : ∀ r ∈ reservedWords, r.toList.head? ≠ some '\'' := by decide
      refine hhead r hr ?_
      rw [← eq_of_beq hequal, String.toList_ofList]
      rfl
    rw [quote_of_not_bare hbare, List.cons_append, List.takeWhile_cons_of_pos (by decide), if_neg]
    rw [hreserved]
    decide
  | true =>
    have hrun : (w ++ rest).takeWhile (fun c => !endsWord c) = w :=
      Text.takeWhile_append_of_head (fun c hc => by
        rw [endsWord_of_not_special (not_special_of_isBare hbare hc), Bool.not_false])
        fun c hc => by rw [h c hc]; decide
    rw [quote_of_bare hbare, hrun, if_neg (by rw [hfree]; decide)]

theorem readRedirect_of_head {skipScript : ScriptSkipper} {n : Nat} {t : Text} (k : Nat)
    (hk : ((t.take 1).takeWhile Char.isDigit).length = k)
    (h : ∀ c ∈ (t.drop k).head?, c ≠ '<' ∧ c ≠ '>') :
    readRedirect skipScript n t = .ok (none, t) := by
  rw [readRedirect, hk]
  cases hrest : t.drop k with
  | nil => simp [Text.after?]
  | cons c u =>
    obtain ⟨hless, hgreater⟩ := h c (by simp [hrest])
    simp [Text.after?, hless.symm, hless, hgreater]

/-- No redirection begins with a quoted word. -/
theorem readRedirect_quote (skipScript : ScriptSkipper) (n : Nat) (w : Text) {rest : Text}
    (h : Ends rest) :
    readRedirect skipScript n (quote w ++ rest) = .ok (none, quote w ++ rest) := by
  cases hbare : isBare w with
  | false =>
    rw [quote_of_not_bare hbare, List.cons_append]
    exact readRedirect_of_head 0 (by simp) (by simp)
  | true =>
    have hplain (c : Char) (hc : c ∈ w) : c ≠ '<' ∧ c ≠ '>' := by
      have hspecial := not_special_of_isBare hbare hc
      constructor <;> rintro rfl <;> exact hspecial (by decide)
    obtain ⟨c, w, rfl⟩ := List.exists_cons_of_ne_nil (ne_nil_of_isBare hbare)
    rw [quote_of_bare hbare, List.cons_append]
    by_cases hdigit : c.isDigit = true
    · -- a redirection could stand behind the digit
      refine readRedirect_of_head 1 (by simp [hdigit]) fun d hd => ?_
      cases w with
      | nil =>
        rw [h d (by simpa using hd)]
        decide
      | cons b w =>
        obtain rfl : b = d := by simpa using hd
        exact hplain b (by simp)
    · refine readRedirect_of_head 0 (by simp [hdigit]) fun d hd => ?_
      obtain rfl : c = d := by simpa using hd
      exact hplain c (by simp)

theorem replaceAlias_nil (n : Nat) (used : List Text) (t : Text) :
    replaceAlias [] n used t = t := by
  cases n <;> simp [replaceAlias]

/-- A command goes on with a quoted word. -/
theorem readSimple_quote (skipScript : ScriptSkipper) {n : Nat} (s : Simple) {t rest : Text}
    {w : Text} (ht : skipBlanks t = quote w ++ rest) (h : Ends rest) (hn : (quote w).length ≤ n) :
    readSimple [] skipScript (n + 1) s t =
      readSimple [] skipScript n { s with
        words := spelled w :: s.words, behind := some (s.behind.getD (rest.count '\n')) } rest := by
  have hword := Word.read_quote skipScript w h (Nat.lt_succ_of_le hn)
  rw [readSimple, ht, readRedirect_quote skipScript n w h]
  simp only [bind, Except.bind, replaceAlias_nil, ite_self, hword]
  cases hbehind : s.behind <;> simp [hbehind, Word.assignment?_spelled]

theorem readSimple_end (skipScript : ScriptSkipper) (n : Nat) (s : Simple) {rest : Text}
    (h : EndsCommand rest) :
    readSimple [] skipScript (n + 1) s rest = .ok (s, skipBlanks rest) := by
  have hredirect : readRedirect skipScript n (skipBlanks rest) = .ok (none, skipBlanks rest) := by
    cases h with
    | atEnd => exact readRedirect_of_head 0 rfl (by simp [skipBlanks])
    | atPipe t => exact readRedirect_of_head 0 rfl (by simp [skipBlanks])
  have hword : Word.read skipScript (n + 1) (skipBlanks rest) = .ok (none, skipBlanks rest) := by
    cases h with
    | atEnd => rfl
    | atPipe t => rfl
  rw [readSimple, hredirect]
  simp only [bind, Except.bind, replaceAlias_nil, ite_self, hword]

/-- A command takes all quoted words. -/
theorem readSimple_led (skipScript : ScriptSkipper) {n : Nat} {s : Simple} (hs : s.behind.isSome)
    {rest : Text} (h : EndsCommand rest) (ws : List Text) (hn : (led ws).length ≤ n) :
    readSimple [] skipScript (n + 1) s (led ws ++ rest) =
      .ok ({ s with words := (ws.map spelled).reverse ++ s.words }, skipBlanks rest) := by
  induction ws generalizing n s with
  | nil => exact readSimple_end skipScript n s h
  | cons w ws ih =>
    obtain ⟨k, hbehind⟩ := Option.isSome_iff_exists.mp hs
    have hblank : skipBlanks (led (w :: ws) ++ rest) = quote w ++ (led ws ++ rest) := by
      have htext : led (w :: ws) ++ rest = ' ' :: (quote w ++ (led ws ++ rest)) := by simp [led]
      rw [htext, skipBlanks, skipBlanks_quote]
    have hlength : (led (w :: ws)).length = (quote w).length + (led ws).length + 1 := by
      simp [led]
    obtain ⟨n, rfl⟩ := Nat.exists_eq_add_of_le' (show 1 ≤ n by omega)
    rw [readSimple_quote skipScript s hblank (ends_led h ws) (by omega), ih rfl (by omega)]
    simp [hbehind]

/-- No function is defined by quoted words. -/
theorem definition?_quote (w : Text) (ws : List Text) {rest : Text} (h : EndsCommand rest) :
    definition? (quote w ++ (led ws ++ rest)) = .ok none := by
  have hbehind : ∀ t, skipBlanks (led ws ++ rest) ≠ '(' :: t := by
    intro t
    cases ws with
    | nil => cases h <;> simp [led, skipBlanks]
    | cons v ws =>
      have htext : led (v :: ws) ++ rest = ' ' :: (quote v ++ (led ws ++ rest)) := by simp [led]
      obtain ⟨c, u, hquote, hc⟩ :=
        exists_quote_append v (led ws ++ rest) ['('] (by simp [specials])
      rw [htext, skipBlanks, skipBlanks_quote, hquote]
      simpa using fun hcall => absurd hcall (by simpa using hc)
  cases hbare : isBare w with
  | false =>
    rw [quote_of_not_bare hbare, List.cons_append, definition?]
    simp [Enclosure.isSpecial, Enclosure.isQuoted, skipBlanks]
  | true =>
    have hrun : (w ++ (led ws ++ rest)).takeWhile
        (fun c => !(Enclosure.bare.isSpecial c || c = '=')) = w := by
      refine Text.takeWhile_append_of_head (fun c hc => ?_) fun c hc => ?_
      · have hspecial := not_special_of_isBare hbare hc
        have hequals : c ≠ '=' := by
          rintro rfl
          exact hspecial (by decide)
        simp [isSpecial_bare hspecial, hequals]
      · rw [ends_led h ws c hc]
        decide
    rw [quote_of_bare hbare, definition?, hrun, List.drop_left]
    dsimp only
    split
    · next hparen => exact absurd hparen (hbehind _)
    · rfl

theorem readCommand_quote {w : Text} (hfree : reservedWords.contains (String.ofList w) = false)
    (ws : List Text) {rest : Text} (h : EndsCommand rest) {n : Nat}
    (hn : (quote w ++ led ws).length + 2 ≤ n) :
    readCommand [] n (quote w ++ (led ws ++ rest)) =
      .ok (.simple ((led ws ++ rest).count '\n') [] ((w :: ws).map spelled) [],
        skipBlanks rest) := by
  have hends := ends_led h ws
  have hkeyword := keyword?_quote hfree hends
  have hdefinition := definition?_quote w ws h
  have hblanks := skipBlanks_quote w (led ws ++ rest)
  obtain ⟨c, t, hquote, hc⟩ :=
    exists_quote_append w (led ws ++ rest) ['('] (by simp [specials])
  have hpos : 0 < (quote w).length := by
    obtain ⟨d, u, hcons, -⟩ := quote_eq_cons w
    simp [hcons]
  rw [List.length_append] at hn
  obtain ⟨n, rfl⟩ := Nat.exists_eq_add_of_le' (show 3 ≤ n by omega)
  have hfirst := readSimple_quote (skipScript [] (n + 2)) {} hblanks hends (n := n + 1) (by omega)
  have hothers := readSimple_led (skipScript [] (n + 2))
    (s := { words := [spelled w], behind := some ((led ws ++ rest).count '\n') }) rfl h ws (n := n)
    (by omega)
  rw [readCommand]
  simp only [hblanks, replaceAlias_nil, ite_self]
  split
  · next hparen =>
    rw [hquote] at hparen
    exact absurd (List.cons.inj hparen).1 (by simpa using hc)
  · rw [hkeyword, hdefinition]
    simp only [bind, Except.bind, hfirst, Option.getD_none]
    rw [hothers]
    simp [Simple.toScript]

/-! ## Reading a line -/

section Line

variable {w : Text} (hfree : reservedWords.contains (String.ofList w) = false) (ws : List Text)

include hfree

theorem readPipes_quote {n : Nat} (hn : (quote w ++ led ws).length + 2 ≤ n) :
    readPipes [] (n + 1) (quote w ++ led ws) =
      .ok (.simple ((led ws).count '\n') [] ((w :: ws).map spelled) [], []) := by
  have hcommand := readCommand_quote hfree ws .atEnd hn
  rw [List.append_nil] at hcommand
  rw [readPipes, hcommand]
  rfl

/-- A line that is nothing but commands with pipes between them. -/
theorem readLine_of_pipes {rest : Text} (h : Ends rest) {script : Script}
    (hpipes : ∀ n, (quote w ++ rest).length + 2 ≤ n →
      readPipes [] (n + 1) (quote w ++ rest) = .ok (script, [])) :
    readLine [] (quote w ++ rest) = .ok (script, []) := by
  have hlines := skipLines_quote w rest
  have hkeyword := keyword?_quote hfree h
  have hblanks := skipBlanks_quote w rest
  obtain ⟨n, hsteps⟩ : ∃ n, readingSteps (quote w ++ rest) = n + 2 :=
    ⟨8 * (quote w ++ rest).length + 14, rfl⟩
  have hn : (quote w ++ rest).length + 2 ≤ n := by
    unfold readingSteps at hsteps
    omega
  have hpipeline : readPipeline [] (n + 2) (quote w ++ rest) = .ok (script, []) := by
    rw [readPipeline, hblanks, hkeyword]
    exact hpipes n hn
  have hjoined : readJoined [] (n + 2) script [] = .ok (script, []) := by
    simp [readJoined, skipBlanks]
  have hline : readLineFrom [] (n + 2) ((quote w ++ rest).length + 1) (quote w ++ rest) =
      .ok (script, []) := by
    simp only [readLineFrom, bind, Except.bind, hpipeline, hjoined]
    rfl
  obtain ⟨c, t, hquote, -⟩ := exists_quote_append w rest [] (by simp)
  rw [readLine, hlines]
  rw [hquote] at hline hsteps ⊢
  simp only [hsteps]
  exact hline

/-- A line of quoted words, the first of which is no reserved word, is one command, and it has these
words. -/
theorem readLine_join :
    readLine [] (join (w :: ws)) =
      .ok (.simple ((led ws).count '\n') [] ((w :: ws).map spelled) [], []) := by
  have hends := ends_led .atEnd ws
  rw [List.append_nil] at hends
  rw [join_cons]
  exact readLine_of_pipes hfree hends fun n hn => readPipes_quote hfree ws hn

/-- Two rows of quoted words with a pipe between them are two commands, each with its words. -/
theorem readLine_piped {v : Text} (hv : reservedWords.contains (String.ofList v) = false)
    (vs : List Text) :
    readLine [] (join (v :: vs) ++ [' ', '|', ' '] ++ join (w :: ws)) =
      .ok (.piped
        (.simple ((led vs ++ [' ', '|', ' '] ++ join (w :: ws)).count '\n') []
          ((v :: vs).map spelled) [])
        (.simple ((led ws).count '\n') [] ((w :: ws).map spelled) []), []) := by
  have hpipe := EndsCommand.atPipe (' ' :: join (w :: ws))
  have htext : join (v :: vs) ++ [' ', '|', ' '] ++ join (w :: ws) =
      quote v ++ (led vs ++ ' ' :: '|' :: ' ' :: join (w :: ws)) := by
    simp [join_cons]
  rw [htext]
  refine readLine_of_pipes hv (ends_led hpipe vs) fun n hn => ?_
  have hlength : (quote v ++ (led vs ++ ' ' :: '|' :: ' ' :: join (w :: ws))).length =
      (quote v ++ led vs).length + (quote w ++ led ws).length + 3 := by
    simp [join_cons]
    omega
  obtain ⟨n, rfl⟩ := Nat.exists_eq_add_of_le' (show 1 ≤ n by omega)
  have hfirst := readCommand_quote hv vs hpipe (n := n + 1) (by omega)
  have hsecond : readPipes [] (n + 1) (skipLines false (' ' :: join (w :: ws))) =
      .ok (.simple ((led ws).count '\n') [] ((w :: ws).map spelled) [], []) := by
    have hblank : skipLines false (' ' :: join (w :: ws)) = quote w ++ led ws := by
      rw [join_cons, skipLines.eq_def]
      exact skipLines_quote w (led ws)
    rw [hblank]
    exact readPipes_quote hfree ws (by omega)
  have hbar : skipBlanks (skipBlanks (' ' :: '|' :: ' ' :: join (w :: ws))) =
      '|' :: ' ' :: join (w :: ws) := rfl
  rw [readPipes, hfirst]
  simp only [bind, Except.bind, hbar]
  split
  · next hbars => simp at hbars
  · next more _ hmore =>
    obtain rfl := (List.cons.inj hmore).2
    rw [hsecond]
    simp
  · next hnone => exact absurd rfl (hnone _)

/-- The script that runs a command with an input writes the input, and pipes that into the command.
Both have their words. -/
theorem readLine_script (name input : Text) :
    readLine [] (Command.script (.posix name) (some input) (join (w :: ws))) =
      .ok (.piped
        (.simple ((led [input] ++ [' ', '|', ' '] ++ join (w :: ws)).count '\n') []
          (["echo".toList, input].map spelled) [])
        (.simple ((led ws).count '\n') [] ((w :: ws).map spelled) []), []) := by
  have hecho : reservedWords.contains (String.ofList "echo".toList) = false := by decide +kernel
  have hquote : quote "echo".toList = "echo".toList := by decide +kernel
  have hscript : Command.script (.posix name) (some input) (join (w :: ws)) =
      quote "echo".toList ++ led [input] ++ [' ', '|', ' '] ++ join (w :: ws) := by
    rw [hquote, led, List.flatMap_singleton]
    rfl
  rw [hscript, ← join_cons]
  exact readLine_piped hfree ws hecho [input]

end Line

end Script

end Fanout
