import Fanout.Proofs.Stretch
import Fanout.ShellWord.Split

/-!
# The quotes that a shell sees

A scanner and a splitter are different machines. Inside single quotes a backslash escapes for the
scanner and is an ordinary character for the splitter; the splitter also tells words from the blanks
between them and joins lines. In what the context of a group depends on they still go in step: which
quotes are open, and outside single quotes whether a backslash waits. Only a comment parts them,
since a quote in a comment opens nothing.

* `Phase.context`, `Phase.waits`: what a phase of the splitter says about quotes and backslashes.
* `InStep`: what the two machines agree on. Each character keeps it (`InStep.next`), and so does a
  text (`InStep.run`).
* `inStep_run`: along a text without a hash they agree everywhere, and the text has no words exactly
  when the scanner is left inside quotes.
-/

namespace Fanout

namespace ShellWord

/-- The quotes that are open in the phase. A backslash does not leave them. -/
def Phase.context : Phase → QuoteContext
  | .singleQuoted => .single
  | .doubleQuoted | .doubleQuotedBackslash => .double
  | .delimiter | .backslash | .unquoted | .unquotedBackslash | .comment => .plain

/-- A backslash waits for the character that it escapes. -/
def Phase.waits : Phase → Bool
  | .backslash | .unquotedBackslash | .doubleQuotedBackslash => true
  | .delimiter | .unquoted | .singleQuoted | .doubleQuoted | .comment => false

end ShellWord

/-! ## One character -/

namespace Scanner

/-- What a tracking scanner does to the quotes. A waiting backslash keeps them, but not the single
ones, which an apostrophe closes all the same. -/
theorem context_next (s : Scanner) (c : Char) :
    (s.next c true).context =
      if s.escaping && s.context ≠ .single then s.context else s.context.after c := by
  obtain ⟨context, escaping⟩ := s
  unfold next escapes closesSingle
  by_cases ha : c = '\''
  · subst ha
    cases context <;> cases escaping <;> rfl
  · by_cases hb : c = '\\'
    · subst hb
      cases context <;> cases escaping <;> rfl
    · cases context <;> cases escaping <;> simp [QuoteContext.after, ha, hb]

end Scanner

namespace ShellWord

namespace Splitter

variable {x : Splitter} {c : Char}

/-- What a splitter does to the quotes, outside comments. -/
theorem context_step (hx : x.phase ≠ .comment) :
    (x.step c).phase.context =
      if x.phase.waits then x.phase.context else x.phase.context.after c := by
  unfold step
  cases hp : x.phase with
  | comment => exact absurd hp hx
  | delimiter | unquoted =>
    by_cases ha : c = '\''
    · simp [ha, Phase.context, Phase.waits, QuoteContext.after, enter]
    · by_cases hq : c = '"'
      · simp [hq, Phase.context, Phase.waits, QuoteContext.after, enter]
      · simp only [ha, hq, if_false, Phase.waits, Bool.false_eq_true, Phase.context,
          QuoteContext.after]
        split_ifs <;> simp [enter, push, close, hp]
  | singleQuoted =>
    by_cases ha : c = '\''
    · simp [ha, Phase.context, Phase.waits, QuoteContext.after, enter]
    · simp [ha, Phase.context, Phase.waits, QuoteContext.after, push]
  | doubleQuoted =>
    by_cases hq : c = '"'
    · simp [hq, Phase.context, Phase.waits, QuoteContext.after, enter]
    · simp only [hq, if_false, Phase.waits, Bool.false_eq_true, Phase.context, QuoteContext.after]
      split_ifs <;> simp [enter, push]
  | backslash | unquotedBackslash | doubleQuotedBackslash =>
    simp only [Phase.waits, if_true]
    split_ifs <;> simp [Phase.context, enter, push]

/-- A backslash waits when it stands outside single quotes and is not escaped itself. -/
theorem waits_step (hx : x.phase ≠ .comment) :
    (x.step c).phase.waits =
      (!x.phase.waits && (x.phase.context ≠ .single && c = '\\')) := by
  unfold step
  cases hp : x.phase with
  | comment => exact absurd hp hx
  | delimiter | unquoted | doubleQuoted =>
    by_cases hb : c = '\\'
    · simp [hb, Phase.context, Phase.waits, enter]
    · simp only [hb, if_false]
      split_ifs <;> simp [Phase.waits, enter, push, close, hp]
  | singleQuoted =>
    simp only
    split_ifs <;> simp [Phase.context, Phase.waits, enter, push]
  | backslash | unquotedBackslash | doubleQuotedBackslash =>
    simp only
    split_ifs <;> simp [Phase.waits, enter, push]

/-- Only a hash begins a comment. -/
theorem phase_step_ne_comment (hx : x.phase ≠ .comment) (hc : c ≠ '#') :
    (x.step c).phase ≠ .comment := by
  unfold step
  cases hp : x.phase with
  | comment => exact absurd hp hx
  | delimiter | backslash | unquoted | unquotedBackslash | singleQuoted | doubleQuoted
  | doubleQuotedBackslash =>
    simp only [hc, if_false]
    split_ifs <;> simp [enter, push, close, hp]

end Splitter

/-! ## Texts -/

/-- A scanner and a splitter agree on the quotes, and outside single quotes on the backslash. -/
structure InStep (s : Scanner) (p : Phase) : Prop where
  context : s.context = p.context
  escaping : s.context ≠ .single → s.escaping = p.waits
  /-- A comment would part them. -/
  noComment : p ≠ .comment

theorem inStep_start : InStep .start ({} : Splitter).phase := by
  refine ⟨rfl, ?_, by decide⟩
  intro _
  rfl

/-- A character keeps the machines in step. -/
theorem InStep.next {s : Scanner} {x : Splitter} (h : InStep s x.phase) {c : Char} (hc : c ≠ '#') :
    InStep (s.next c true) (x.step c).phase := by
  obtain ⟨hcontext, hescaping, hx⟩ := h
  have hsame : (s.next c true).context = (x.step c).phase.context := by
    rw [Scanner.context_next, Splitter.context_step hx, ← hcontext]
    by_cases hs : s.context = .single
    · -- no backslash waits in single quotes
      have hp : x.phase = .singleQuoted := by
        rw [hs] at hcontext
        cases hphase : x.phase <;> rw [hphase] at hcontext <;> first | rfl | cases hcontext
      simp [hs, hp, Phase.waits]
    · simp [hs, hescaping hs]
  refine ⟨hsame, ?_, Splitter.phase_step_ne_comment hx hc⟩
  intro hne
  rw [Scanner.next_escaping, Splitter.waits_step hx, Text.escapesNext]
  by_cases hs : s.context = .single
  · -- the character has closed the quotes, so it is no backslash
    have ha : c = '\'' := by
      by_contra ha
      rw [Scanner.context_next, hs] at hne
      simp [QuoteContext.after, ha] at hne
    simp [ha]
  · rw [hescaping hs, ← hcontext]
    simp [hs]

theorem InStep.run {s : Scanner} {x : Splitter} (h : InStep s x.phase) {t : Text} (ht : '#' ∉ t) :
    InStep (s.run true t) (x.run t).phase := by
  induction t generalizing s x with
  | nil => exact h
  | cons c t ih =>
    rw [List.mem_cons, not_or] at ht
    rw [Scanner.run_cons, Splitter.run_cons]
    exact ih (h.next (Ne.symm ht.1)) ht.2

theorem finish_eq_none_iff {x : Splitter} : x.finish = none ↔ x.phase.context ≠ .plain := by
  unfold Splitter.finish
  cases x.phase <;> simp [Phase.context]

/-- Along a text without a hash, a scanner is inside the same quotes as a splitter behind every
character, and knows outside single quotes whether a backslash waits. So the text has no words
exactly when the scanner is left inside quotes. -/
theorem inStep_run {t : Text} (ht : '#' ∉ t) :
    (∀ u, u <+: t →
      (Scanner.start.run true u).context = (Splitter.run {} u).phase.context ∧
        ((Scanner.start.run true u).context ≠ .single →
          (Scanner.start.run true u).escaping = (Splitter.run {} u).phase.waits)) ∧
      (split t = none ↔ (Scanner.start.run true t).context ≠ .plain) := by
  have hall : ∀ u, u <+: t → InStep (Scanner.start.run true u) (Splitter.run {} u).phase := by
    intro u hu
    apply inStep_start.run
    intro hmem
    exact ht (hu.subset hmem)
  refine ⟨?_, ?_⟩
  · intro u hu
    exact ⟨(hall u hu).context, (hall u hu).escaping⟩
  · rw [split, finish_eq_none_iff, (hall t (List.prefix_refl t)).context]

/-- A backslash in front of the apostrophe that closes, and one in front of a quote that does
not. -/
theorem inStep_openQuote :
    '#' ∉ "a\\'b '\\' \"c\\\"".toList ∧ split "a\\'b '\\' \"c\\\"".toList = none ∧
      (Splitter.run {} "a\\'b '\\".toList).phase.context = .single := by
  have ht : '#' ∉ "a\\'b '\\' \"c\\\"".toList := by decide
  obtain ⟨halong, hend⟩ := inStep_run ht
  obtain ⟨hquotes, -⟩ := halong "a\\'b '\\".toList (by decide)
  refine ⟨ht, ?_, ?_⟩
  · rw [hend]
    decide
  · rw [← hquotes]
    decide

/-- A quote in a comment opens nothing for a splitter, and it does for a scanner. -/
example : split "# '".toList = some [] ∧
    (Scanner.start.run true "# '".toList).context = .single := by decide

end ShellWord

end Fanout
