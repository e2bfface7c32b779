import Fanout.Proofs.ShellQuotes
import Fanout.Proofs.Stranded

/-!
# Trimmed blanks and words

Blanks that hidden slots strand are dropped from a command before a shell splits it. Which blanks
those are is told by Unicode; which ones part words, by the shell, and it knows fewer. It also lets
a backslash escape a blank. So the words of a command are not always those of its pieces in a row.

* `Phase.ignores`: blanks at the end of a line, behind a reading in the phase, change no words.
* `Splitter.Tidy`: between words no word is growing (`tidy_run`).
* `Splitter.count`: how often a character stands in the words so far. One that the shell has no use
  for is never lost (`count_run`, `count_of_finish`).
* `finish_run_blanks_iff`: blanks behind a line change its words exactly when the phase does not
  ignore them.
* `split_around_iff`: blanks around a line. `split_render_iff`: a command and its pieces in a row.
-/

namespace Fanout

namespace ShellWord

/-! ## Characters -/

/-- The shell has a use for the character, outside quotes at least: it parts words, quotes, escapes
or begins a comment. -/
def isActive (c : Char) : Bool :=
  Splitter.parts c || c = '\'' || c = '"' || c = '\\' || c = '#'

theorem isActive_eq_false {c : Char} : isActive c = false ↔
    Splitter.parts c = false ∧ c ≠ '\'' ∧ c ≠ '"' ∧ c ≠ '\\' ∧ c ≠ '#' := by
  simp [isActive, and_assoc]

theorem isBlank_of_parts {c : Char} (h : Splitter.parts c = true) : Text.isBlank c = true := by
  simp only [Splitter.parts, Bool.or_eq_true, decide_eq_true_eq] at h
  obtain (rfl | rfl) | rfl := h <;> decide

/-- A blank neither quotes nor escapes, and begins no comment. -/
theorem ne_of_isBlank {c : Char} (h : Text.isBlank c = true) :
    c ≠ '\'' ∧ c ≠ '"' ∧ c ≠ '\\' ∧ c ≠ '#' := by
  refine ⟨?_, ?_, ?_, ?_⟩ <;> rintro rfl <;> exact absurd h (by decide)

/-- A blank is a mere character when it parts no words. -/
theorem isActive_of_isBlank {c : Char} (h : Text.isBlank c = true) :
    isActive c = Splitter.parts c := by
  obtain ⟨ha, hq, hb, hh⟩ := ne_of_isBlank h
  simp [isActive, ha, hq, hb, hh]

theorem hash_not_mem_of_blanks {w : Text} (h : ∀ c ∈ w, Text.isBlank c = true) : '#' ∉ w :=
  fun hmem => (ne_of_isBlank (h '#' hmem)).2.2.2 rfl

/-- Blanks at the end of a line, behind a reading in the phase, change no words. Outside quotes
those that part words do not, and behind a backslash none at all is without effect. Inside quotes
there are no words to change. A comment lasts up to the end of its line. -/
def Phase.ignores : Phase → Text → Bool
  | .delimiter, w | .unquoted, w => w.all Splitter.parts
  | .backslash, w | .unquotedBackslash, w => w.isEmpty
  | .singleQuoted, _ | .doubleQuoted, _ | .doubleQuotedBackslash, _ => true
  | .comment, w => (w.dropWhile (· ≠ '\n')).all Splitter.parts

namespace Splitter

variable {s : Splitter} {c d : Char} {w : Text}

/-! ## Between words -/

/-- Between words, and in a comment, no word is growing. -/
def Tidy (s : Splitter) : Prop :=
  s.phase ∈ [Phase.delimiter, .backslash, .comment] → s.word = []

theorem tidy_start : ({} : Splitter).Tidy := fun _ => rfl

theorem tidy_step (h : s.Tidy) (d : Char) : (s.step d).Tidy := by
  intro hphase
  unfold step at hphase ⊢
  cases hp : s.phase with
  | delimiter | backslash | comment =>
    -- a character that joins the word also leaves these phases
    have hword : s.word = [] := h (by simp [hp])
    simp only [hp] at hphase ⊢
    split_ifs at hphase ⊢ <;> simp_all [enter, push]
  | unquoted =>
    simp only [hp] at hphase ⊢
    split_ifs at hphase ⊢ <;> simp_all [enter, push, close]
  | unquotedBackslash | singleQuoted | doubleQuoted | doubleQuotedBackslash =>
    simp only [hp] at hphase ⊢
    split_ifs at hphase ⊢ <;> simp [enter, push] at hphase

theorem tidy_run (h : s.Tidy) (t : Text) : (s.run t).Tidy := by
  induction t generalizing s with
  | nil => exact h
  | cons d t ih => exact ih (tidy_step h d)

/-! ## Counting characters -/

/-- How often the character stands in the words, and in the one that is growing. -/
def count (c : Char) (s : Splitter) : Nat := (s.word :: s.words).flatten.count c

@[simp] theorem count_enter (p : Phase) : (s.enter p).count c = s.count c := rfl

@[simp] theorem count_close : s.close.count c = s.count c := by
  simp [count, close]

theorem count_push (p : Phase) : (s.push p d).count c = s.count c + [d].count c := by
  simp only [count, push, List.flatten_cons, List.cons_append, List.count_cons, List.count_nil]
  omega

/-- Outside quotes there are words. -/
theorem exists_finish (h : s.phase.context = .plain) : ∃ ws, s.finish = some ws := by
  rw [← Option.ne_none_iff_exists', Ne, finish_eq_none_iff, not_not]
  exact h

/-- The words are what was counted, and the backslash that waits at the end of the line. -/
theorem count_of_finish (hs : s.Tidy) (c : Char) {ws : List Text} (h : s.finish = some ws) :
    ws.flatten.count c = s.count c + if s.phase.waits then ['\\'].count c else 0 := by
  have hreverse : ∀ ts : List Text, ts.reverse.flatten.count c = ts.flatten.count c := fun ts =>
    ts.reverse_perm.flatten.count_eq c
  unfold finish at h
  cases hp : s.phase with
  | delimiter | comment =>
    have hword : s.word = [] := hs (by simp [hp])
    rw [hp] at h
    cases h
    rw [hreverse, count, hword]
    rfl
  | unquoted =>
    rw [hp] at h
    cases h
    rw [hreverse]
    exact count_close
  | backslash | unquotedBackslash =>
    rw [hp] at h
    cases h
    rw [hreverse]
    exact count_close.trans (count_push _)
  | singleQuoted | doubleQuoted | doubleQuotedBackslash =>
    rw [hp] at h
    cases h

/-- Outside comments a character that the shell has no use for joins a word, and no other character
brings it along. -/
theorem count_step (hs : s.phase ≠ .comment) (hc : isActive c = false) (hd : d ≠ '#') :
    (s.step d).count c = s.count c + [d].count c := by
  obtain ⟨hparts, ha, hq, hb, -⟩ := isActive_eq_false.mp hc
  have hother : ∀ {e : Char}, c ≠ e → [e].count c = 0 := fun he =>
    List.count_singleton.trans (if_neg (by simpa using Ne.symm he))
  have hblank : parts d = true → [d].count c = 0 := fun hd => hother fun heq => by
    rw [heq, hd] at hparts
    cases hparts
  have hnewline : d = '\n' → [d].count c = 0 := fun heq => hblank (by simp [heq, parts])
  unfold step
  cases hp : s.phase with
  | comment => exact absurd hp hs
  | delimiter | unquoted =>
    simp only [hd, if_false]
    split_ifs with h1 h2 h3 h4
    · simp [h1, hother ha]
    · simp [h2, hother hq]
    · simp [h3, hother hb]
    · simp [hblank h4]
    · exact count_push _
  | backslash | unquotedBackslash =>
    simp only
    split_ifs with h1
    · simp [hnewline h1]
    · exact count_push _
  | singleQuoted =>
    simp only
    split_ifs with h1
    · simp [h1, hother ha]
    · exact count_push _
  | doubleQuoted =>
    simp only
    split_ifs with h1 h2
    · simp [h1, hother hq]
    · simp [h2, hother hb]
    · exact count_push _
  | doubleQuotedBackslash =>
    simp only
    split_ifs with h1 h2
    · simp [hnewline h1]
    · exact count_push _
    · rw [count_push, count_push, hother hb, Nat.add_zero]

theorem count_run (hs : s.phase ≠ .comment) (hc : isActive c = false) {t : Text} (ht : '#' ∉ t) :
    (s.run t).count c = s.count c + t.count c := by
  induction t generalizing s with
  | nil => rfl
  | cons d t ih =>
    rw [List.mem_cons, not_or] at ht
    have hd : d ≠ '#' := Ne.symm ht.1
    have hsingle : (d :: t).count c = [d].count c + t.count c := by
      rw [← List.singleton_append, List.count_append]
    rw [run_cons, ih (phase_step_ne_comment hs hd) ht.2, count_step hs hc hd, hsingle,
      Nat.add_assoc]

/-! ## Blanks -/

theorem context_step_blank (s : Splitter) (hd : Text.isBlank d = true) :
    (s.step d).phase.context = s.phase.context := by
  obtain ⟨ha, hq, -, -⟩ := ne_of_isBlank hd
  by_cases hs : s.phase = .comment
  · simp only [step, hs]
    split_ifs
    · rfl
    · rw [hs]
  · have hafter : s.phase.context.after d = s.phase.context := by
      cases s.phase.context <;> simp [QuoteContext.after, ha, hq]
    rw [context_step hs, hafter, ite_self]

theorem waits_step_blank (s : Splitter) (hd : Text.isBlank d = true) :
    (s.step d).phase.waits = false := by
  obtain ⟨-, -, hb, -⟩ := ne_of_isBlank hd
  by_cases hs : s.phase = .comment
  · simp only [step, hs]
    split_ifs
    · rfl
    · rw [hs]
      rfl
  · simp [waits_step hs, hb]

/-- Blanks keep the quotes. -/
theorem context_run_blanks (s : Splitter) (hw : ∀ c ∈ w, Text.isBlank c = true) :
    (s.run w).phase.context = s.phase.context := by
  induction w generalizing s with
  | nil => rfl
  | cons d w ih =>
    obtain ⟨hd, hw⟩ := List.forall_mem_cons.mp hw
    rw [run_cons, ih _ hw, context_step_blank s hd]

/-- No backslash waits behind a blank. -/
theorem waits_run_blanks (hs : s.phase.waits = false) (hw : ∀ c ∈ w, Text.isBlank c = true) :
    (s.run w).phase.waits = false := by
  induction w generalizing s with
  | nil => exact hs
  | cons d w ih =>
    obtain ⟨hd, hw⟩ := List.forall_mem_cons.mp hw
    exact ih (waits_step_blank s hd) hw

/-- Blanks open and close no quotes, so there are words behind them when there are words in front
of them. -/
theorem finish_run_blanks_eq_none_iff (hw : ∀ c ∈ w, Text.isBlank c = true) :
    (s.run w).finish = none ↔ s.finish = none := by
  rw [finish_eq_none_iff, finish_eq_none_iff, context_run_blanks s hw]

/-- Outside quotes blanks bring no backslash along. -/
theorem count_backslash_run_blanks (hs : s.phase ≠ .comment) (hplain : s.phase.context = .plain)
    (hw : ∀ c ∈ w, Text.isBlank c = true) : (s.run w).count '\\' = s.count '\\' := by
  induction w generalizing s with
  | nil => rfl
  | cons d w ih =>
    obtain ⟨hd, hw⟩ := List.forall_mem_cons.mp hw
    obtain ⟨ha, hq, hb, hh⟩ := ne_of_isBlank hd
    have hpush : ∀ p : Phase, (s.push p d).count '\\' = s.count '\\' := fun p => by
      rw [count_push, List.count_singleton, if_neg (by simpa using hb), Nat.add_zero]
    have hstep : (s.step d).count '\\' = s.count '\\' := by
      unfold step
      cases hp : s.phase with
      | comment => exact absurd hp hs
      | delimiter | unquoted =>
        simp only [ha, hq, hb, hh, if_false]
        split_ifs <;> simp [hpush]
      | backslash | unquotedBackslash =>
        simp only
        split_ifs <;> simp [hpush]
      | singleQuoted | doubleQuoted | doubleQuotedBackslash =>
        rw [hp] at hplain
        cases hplain
    rw [run_cons, ih (phase_step_ne_comment hs hh) _ hw, hstep]
    rw [context_step_blank s hd, hplain]

/-! ## Blanks that part words -/

/-- Between words, blanks that part words do nothing. -/
theorem run_parts (hs : s.phase = .delimiter) (hw : ∀ c ∈ w, parts c = true) : s.run w = s := by
  induction w with
  | nil => rfl
  | cons d w ih =>
    obtain ⟨hd, hw⟩ := List.forall_mem_cons.mp hw
    obtain ⟨ha, hq, hb, -⟩ := ne_of_isBlank (isBlank_of_parts hd)
    have hstep : s.step d = s := by simp [step, hs, ha, hq, hb, hd]
    rw [run_cons, hstep, ih hw]

/-- Outside quotes, with no backslash waiting, blanks change the words exactly when one of them
parts none: it stands in a word then. -/
theorem finish_run_blanks_iff_parts (hs : s.Tidy) (hphase : s.phase ∈ [Phase.delimiter, .unquoted])
    (hw : ∀ c ∈ w, Text.isBlank c = true) :
    (s.run w).finish = s.finish ↔ ∀ c ∈ w, parts c = true := by
  obtain ⟨hwaits, hplain, hcomment⟩ :
      s.phase.waits = false ∧ s.phase.context = .plain ∧ s.phase ≠ .comment := by
    rw [List.mem_pair] at hphase
    obtain hp | hp := hphase <;> rw [hp] <;> decide
  constructor
  · intro hsame c hc
    by_contra hparts
    have hactive : isActive c = false := by
      rw [isActive_of_isBlank (hw c hc)]
      exact Bool.eq_false_iff.mpr hparts
    obtain ⟨ws, hws⟩ := exists_finish hplain
    have hmore := count_run hcomment hactive (hash_not_mem_of_blanks hw)
    have hbefore := count_of_finish hs c hws
    have hafter := count_of_finish (tidy_run hs w) c (hsame.trans hws)
    have hpos : 0 < w.count c := List.count_pos_iff.mpr hc
    simp only [hwaits, waits_run_blanks hwaits hw, Bool.false_eq_true, if_false] at hbefore hafter
    omega
  · intro hparts
    rw [List.mem_pair] at hphase
    obtain hp | hp := hphase
    · rw [run_parts hp hparts]
    · cases w with
      | nil => rfl
      | cons d w =>
        -- the first blank ends the word, as the end of the line does
        obtain ⟨hd, hparts⟩ := List.forall_mem_cons.mp hparts
        obtain ⟨ha, hq, hb, -⟩ := ne_of_isBlank (isBlank_of_parts hd)
        have hstep : s.step d = s.close := by simp [step, hp, ha, hq, hb, hd]
        rw [run_cons, hstep, run_parts rfl hparts]
        simp [finish, hp, close]

/-- A blank behind a waiting backslash always changes the words, which lose the backslash. -/
theorem finish_run_blanks_ne (hs : s.Tidy)
    (hphase : s.phase ∈ [Phase.backslash, .unquotedBackslash])
    (hw : ∀ c ∈ w, Text.isBlank c = true) (hne : w ≠ []) : (s.run w).finish ≠ s.finish := by
  obtain ⟨hwaits, hplain, hcomment⟩ :
      s.phase.waits = true ∧ s.phase.context = .plain ∧ s.phase ≠ .comment := by
    rw [List.mem_pair] at hphase
    obtain hp | hp := hphase <;> rw [hp] <;> decide
  obtain ⟨d, w, rfl⟩ := List.exists_cons_of_ne_nil hne
  obtain ⟨hd, htail⟩ := List.forall_mem_cons.mp hw
  intro hsame
  obtain ⟨ws, hws⟩ := exists_finish hplain
  have hbefore := count_of_finish hs '\\' hws
  have hafter := count_of_finish (tidy_run hs (d :: w)) '\\' (hsame.trans hws)
  have hlost : ((s.step d).run w).phase.waits = false :=
    waits_run_blanks (waits_step_blank s hd) htail
  rw [count_backslash_run_blanks hcomment hplain hw, run_cons, hlost] at hafter
  simp only [hwaits, if_true, Bool.false_eq_true, if_false, List.count_singleton_self]
    at hbefore hafter
  omega

/-- Blanks behind a line change its words exactly when the phase in which the line ends does not
ignore them. -/
theorem finish_run_blanks_iff (hs : s.Tidy) (hw : ∀ c ∈ w, Text.isBlank c = true) :
    (s.run w).finish = s.finish ↔ s.phase.ignores w = true := by
  cases hp : s.phase with
  | delimiter | unquoted =>
    rw [finish_run_blanks_iff_parts hs (by simp [hp]) hw, Phase.ignores, List.all_eq_true]
  | backslash | unquotedBackslash =>
    rw [Phase.ignores, List.isEmpty_iff]
    constructor
    · intro hsame
      by_contra hne
      exact finish_run_blanks_ne hs (by simp [hp]) hw hne hsame
    · rintro rfl
      rfl
  | singleQuoted | doubleQuoted | doubleQuotedBackslash =>
    have hnone : s.finish = none := by simp [finish, hp]
    rw [finish_run_blanks_eq_none_iff hw |>.mpr hnone, hnone]
    simp [Phase.ignores]
  | comment =>
    induction w with
    | nil => simp [Phase.ignores]
    | cons d w ih =>
      obtain ⟨-, htail⟩ := List.forall_mem_cons.mp hw
      by_cases hd : d = '\n'
      · -- the line of the comment ends, and words can begin again
        have hstep : s.step d = s.enter .delimiter := by simp [step, hp, hd]
        have htidy : (s.enter .delimiter).Tidy := fun _ => hs (by simp [hp])
        have hfinish : s.finish = (s.enter .delimiter).finish := by simp [finish, hp, enter]
        rw [run_cons, hstep, hfinish, finish_run_blanks_iff_parts htidy (by simp [enter]) htail]
        simp [Phase.ignores, hd, parts]
      · have hstep : s.step d = s := by simp [step, hp, hd]
        rw [run_cons, hstep, ih htail]
        simp [Phase.ignores, hd]

end Splitter

/-! ## Blanks around a line -/

section Around

variable {front behind : Text}

/-- Blanks at its start leave a scanner there. -/
theorem scanner_run_blanks (hfront : ∀ c ∈ front, Text.isBlank c = true) :
    Scanner.start.run true front = .start := by
  induction front with
  | nil => rfl
  | cons d front ih =>
    obtain ⟨hd, hfront⟩ := List.forall_mem_cons.mp hfront
    obtain ⟨ha, hq, hb, -⟩ := ne_of_isBlank hd
    have hnext : Scanner.start.next d true = .start := by
      simp [Scanner.next, Scanner.escapes, Scanner.start, QuoteContext.after, ha, hq, hb]
    rw [Scanner.run_cons, hnext, ih hfront]

/-- Without a hash in the line, blanks around it change nothing about whether it has words. -/
theorem split_around_eq_none_iff (hfront : ∀ c ∈ front, Text.isBlank c = true)
    (hbehind : ∀ c ∈ behind, Text.isBlank c = true) {x : Text} (hx : '#' ∉ x) :
    split (front ++ x ++ behind) = none ↔ split x = none := by
  have hstart : InStep .start (Splitter.run {} front).phase := by
    have h := inStep_start.run (hash_not_mem_of_blanks hfront)
    rwa [scanner_run_blanks hfront] at h
  have hsame : ((Splitter.run {} front).run x).phase.context =
      (Splitter.run {} x).phase.context := by
    rw [← (hstart.run hx).context, ← (inStep_start.run hx).context]
  rw [split, Splitter.run_append, Splitter.run_append,
    Splitter.finish_run_blanks_eq_none_iff hbehind, finish_eq_none_iff, hsame, split,
    finish_eq_none_iff]

/-- A blank in front of a line that parts no words stands in one. -/
theorem split_around_ne (hfront : ∀ c ∈ front, Text.isBlank c = true) {c : Char} (hc : c ∈ front)
    (hparts : Splitter.parts c = false) {x : Text} (hhash : '#' ∉ front ++ x ++ behind)
    {ws : List Text} (hws : split (front ++ x ++ behind) = some ws) : split x ≠ some ws := by
  intro hsame
  have hactive : isActive c = false := by rw [isActive_of_isBlank (hfront c hc), hparts]
  have hhashx : '#' ∉ x := fun h => hhash (by simp [h])
  have hbefore := Splitter.count_of_finish
    (Splitter.tidy_run Splitter.tidy_start (front ++ x ++ behind)) c hws
  have hafter := Splitter.count_of_finish (Splitter.tidy_run Splitter.tidy_start x) c hsame
  rw [Splitter.count_run (by decide) hactive hhash] at hbefore
  rw [Splitter.count_run (by decide) hactive hhashx] at hafter
  have hwaits : ∀ b : Bool, (if b then ['\\'].count c else 0) = 0 := by
    have hne : c ≠ '\\' := (ne_of_isBlank (hfront c hc)).2.2.1
    intro b
    simp [Ne.symm hne]
  have hpos : 0 < front.count c := List.count_pos_iff.mpr hc
  simp only [hwaits, List.count_append] at hbefore hafter
  omega

/-- Blanks around a line change its words, when it has any, exactly when one in front of it parts
no words or the phase in which the line ends does not ignore those behind it. -/
theorem split_around_iff (hfront : ∀ c ∈ front, Text.isBlank c = true)
    (hbehind : ∀ c ∈ behind, Text.isBlank c = true) {x : Text}
    (hx : (∀ c ∈ front, Splitter.parts c = true) ∨ '#' ∉ front ++ x ++ behind) :
    split x = split (front ++ x ++ behind) ↔
      split (front ++ x ++ behind) = none ∨
        (∀ c ∈ front, Splitter.parts c = true) ∧
          (Splitter.run {} x).phase.ignores behind = true := by
  by_cases hparts : ∀ c ∈ front, Splitter.parts c = true
  · have hwhole : split (front ++ x ++ behind) = ((Splitter.run {} x).run behind).finish := by
      rw [split, Splitter.run_append, Splitter.run_append, Splitter.run_parts rfl hparts]
    have htidy := Splitter.tidy_run Splitter.tidy_start x
    rw [hwhole, split, eq_comm, Splitter.finish_run_blanks_iff htidy hbehind]
    constructor
    · intro h
      exact .inr ⟨hparts, h⟩
    · rintro (hnone | ⟨-, h⟩)
      · rw [← Splitter.finish_run_blanks_iff htidy hbehind, hnone, eq_comm]
        exact (Splitter.finish_run_blanks_eq_none_iff hbehind).mp hnone
      · exact h
  · have hhash := hx.resolve_left hparts
    have hnone := split_around_eq_none_iff hfront hbehind (x := x) fun h => hhash (by simp [h])
    simp only [hparts, false_and, or_false]
    constructor
    · intro hsame
      push Not at hparts
      obtain ⟨c, hc, hcparts⟩ := hparts
      by_contra hsome
      obtain ⟨ws, hws⟩ := Option.ne_none_iff_exists'.mp hsome
      exact split_around_ne hfront hc (Bool.eq_false_iff.mpr hcparts) hhash hws (hsame.trans hws)
    · intro h
      rw [h, hnone.mp h]

end Around

/-- A comment that only one of two lines has can bring back what the other line lost: the blank in
front of this line begins a word, so the hash behind it begins no comment. -/
example :
    let x := "#\" #\\\n\u00a0#\" #\u00a0#\"\n".toList
    split x = split ('\u00a0' :: x) ∧ split x = some ["\u00a0# #\u00a0#".toList] := by decide

end ShellWord

/-! ## Commands -/

namespace Template

open ShellWord

/-- A shell reads the same words from a command as from its pieces in a row, when these have words
at all, exactly when the blanks stranded in front part words and those stranded behind are without
effect where the command ends. So an escaped blank at the end is lost from its word, and one that
is no blank to the shell from the word it stands in. A comment that only one of the two lines has
is left out: when a blank in front parts no words, the line has no hash. -/
theorem split_render_iff (t : Template) (slots : List (Option Text))
    (h : (∀ c ∈ strandedStart (t.pieces slots), Splitter.parts c = true) ∨
      '#' ∉ t.untrimmed slots) :
    split (t.render slots) = split (t.untrimmed slots) ↔
      split (t.untrimmed slots) = none ∨
        (∀ c ∈ strandedStart (t.pieces slots), Splitter.parts c = true) ∧
          (Splitter.run {} (t.render slots)).phase.ignores (strandedEnd (t.pieces slots)) =
            true := by
  have hwhole : t.untrimmed slots =
      strandedStart (t.pieces slots) ++ t.render slots ++ strandedEnd (t.pieces slots) :=
    flatMap_text_eq _
  rw [hwhole] at h ⊢
  exact split_around_iff (fun c => isBlank_of_mem_strandedStart)
    (fun c => isBlank_of_mem_strandedEnd) h

/-- Blanks on both sides of a quoted word, between hidden slots. -/
def betweenHidden : Template where
  segments := [.slot 0, .literal "  echo 'b '\t".toList, .slot 1]

/-- Blanks that part words are stranded on both sides of the line, and its words are the same
without them. The blank in quotes stays. -/
theorem split_render_betweenHidden :
    (∀ c ∈ strandedStart (betweenHidden.pieces [none, none]), Splitter.parts c = true) ∧
      betweenHidden.render [none, none] = "echo 'b '".toList ∧
      split (betweenHidden.render [none, none]) = split (betweenHidden.untrimmed [none, none]) ∧
      split (betweenHidden.untrimmed [none, none]) = some ["echo".toList, "b ".toList] := by
  have hblanks : strandedStart (betweenHidden.pieces [none, none]) = "  ".toList := by decide
  have hstart :
      ∀ c ∈ strandedStart (betweenHidden.pieces [none, none]), Splitter.parts c = true := by
    simp [hblanks, Splitter.parts]
  have hend : (Splitter.run {} (betweenHidden.render [none, none])).phase.ignores
      (strandedEnd (betweenHidden.pieces [none, none])) = true := by decide
  have hsame := (split_render_iff betweenHidden [none, none] (.inl hstart)).mpr
    (.inr ⟨hstart, hend⟩)
  refine ⟨hstart, by decide, hsame, ?_⟩
  rw [← hsame]
  decide

/-- An escaped blank in front of a hidden slot. -/
def escapedBlank : Template where
  segments := [.literal "echo a\\ ".toList, .slot 0]

/-- The escaped blank belongs to a word, and is dropped from it; the backslash in front of it stays
behind. -/
theorem split_render_escapedBlank :
    ¬(∀ (t : Template) (slots : List (Option Text)),
        split (t.render slots) = split (t.untrimmed slots)) ∧
      split (escapedBlank.render [none]) = some ["echo".toList, "a\\".toList] ∧
      split (escapedBlank.untrimmed [none]) = some ["echo".toList, "a ".toList] := by
  refine ⟨fun h => ?_, by decide, by decide⟩
  have hsame := h escapedBlank [none]
  revert hsame
  decide

end Template

end Fanout
