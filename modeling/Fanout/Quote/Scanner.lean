import Fanout.Text.Basic

/-!
# Quotes and backslashes along a text

A scanner reads a text one character at a time and knows, after each, which quotes it stands in
and whether a backslash waits for the next character. A backslash escapes in every context. Inside
single quotes it still does, but not the quote that closes them: a backslash is an ordinary
character at the end of a single-quoted word.

Quotes count only while they are tracked. The reader of a template stops tracking them inside a
group, where an apostrophe is part of a term.

* `escapes`: the next character is taken as an escaped literal.
* `next`: the scanner after the next character.
-/

namespace Fanout

/-- The quotes around a position of a text. -/
inductive QuoteContext where
  | plain
  | single
  | double
  deriving DecidableEq, Repr, Inhabited

namespace QuoteContext

/-- The context behind an unescaped character: a quote opens its own context from `plain`, and
closes only its own. -/
def after : QuoteContext → Char → QuoteContext
  | .plain, c => if c = '\'' then .single else if c = '"' then .double else .plain
  | .single, c => if c = '\'' then .plain else .single
  | .double, c => if c = '"' then .plain else .double

end QuoteContext

/-- A position in a text: the quotes around it, and whether a backslash escapes what follows. -/
structure Scanner where
  context : QuoteContext := .plain
  escaping : Bool := false
  deriving DecidableEq, Repr, Inhabited

namespace Scanner

/-- The start of a text. -/
def start : Scanner := {}

/-- A backslash does not escape the apostrophe that closes single quotes. -/
def closesSingle (s : Scanner) (c : Char) (tracked : Bool) : Bool :=
  s.context = .single && c = '\'' && tracked

/-- The next character is an escaped literal. -/
def escapes (s : Scanner) (c : Char) (tracked : Bool) : Bool :=
  s.escaping && !s.closesSingle c tracked

/-- The scanner after one more character. -/
def next (s : Scanner) (c : Char) (tracked : Bool) : Scanner :=
  if s.escapes c tracked then { s with escaping := false }
  else if s.escaping then {}
  else if c = '\\' then { s with escaping := true }
  else if tracked then { s with context := s.context.after c }
  else s

/-- The scanner after a whole text, with quotes tracked or not throughout. -/
def run (s : Scanner) (tracked : Bool) (t : Text) : Scanner :=
  t.foldl (fun s c => s.next c tracked) s

@[simp] theorem run_nil (s : Scanner) (tracked : Bool) : s.run tracked [] = s := rfl

@[simp] theorem run_cons (s : Scanner) (tracked : Bool) (c : Char) (t : Text) :
    s.run tracked (c :: t) = (s.next c tracked).run tracked t := rfl

theorem run_append (s : Scanner) (tracked : Bool) (t u : Text) :
    s.run tracked (t ++ u) = (s.run tracked t).run tracked u := by
  simp [run]

/-- Without tracking, no character but the backslash has an effect. -/
theorem escapes_untracked (s : Scanner) (c : Char) : s.escapes c false = s.escaping := by
  simp [escapes, closesSingle]

end Scanner

end Fanout
