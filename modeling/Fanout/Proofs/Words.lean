import Fanout.Proofs.Stretch
import Fanout.Quote.Slot
import Fanout.ShellWord.Quote
import Fanout.ShellWord.Split
import Mathlib.Data.List.Forall2

/-!
# Words of a shell

How a shell reads back what was written for it, and what single quotes leave of a text: they move
no escape and no delimiter.

* `ShellWord.quotedBody`: what the quoting keeps (`dangles_quotedBody`, `lacks_quotedBody`,
  `unescape_quotedBody`), and how it is undone (`readApostrophes_quotedBody`).
* `ShellWord.Spells`: a text spells words when a shell reads them from it and the next blank ends
  the last one. `split_append_space`: behind such a text, a line goes on as if it began there.
* `spells_quoted`, `spells_escaped`: a word between quotes, and one without.
* `split_join`: a line of quoted words is split into the words it was made of.
-/

namespace Fanout

namespace ShellWord

/-! ## Inside single quotes -/

@[simp] theorem quotedBody_apostrophe (t : Text) :
    quotedBody ('\'' :: t) = '\'' :: '\\' :: '\'' :: '\'' :: quotedBody t := rfl

theorem quotedBody_cons_of_ne {c : Char} (h : c ≠ '\'') (t : Text) :
    quotedBody (c :: t) = c :: quotedBody t := by
  simp [quotedBody, h]

theorem quotedBody_append (t u : Text) : quotedBody (t ++ u) = quotedBody t ++ quotedBody u := by
  simp [quotedBody]

theorem quotedBody_of_not_mem {t : Text} (h : '\'' ∉ t) : quotedBody t = t := by
  induction t with
  | nil => rfl
  | cons c t ih =>
    rw [List.mem_cons, not_or] at h
    rw [quotedBody_cons_of_ne (Ne.symm h.1), ih h.2]

theorem readApostrophes_quotedBody (t : Text) : readApostrophes (quotedBody t) = t := by
  induction t with
  | nil => rfl
  | cons c t ih =>
    by_cases hc : c = '\''
    · rw [hc, quotedBody_apostrophe, readApostrophes, ih]
    · have hstep : readApostrophes (c :: quotedBody t) = c :: readApostrophes (quotedBody t) :=
        readApostrophes.eq_2 _ _ (fun u hu => absurd hu hc)
      rw [quotedBody_cons_of_ne hc, hstep, ih]

/-- An apostrophe is written with a backslash, which escapes nothing behind it. -/
theorem dangles_quotedBody (e : Bool) (t : Text) :
    Text.dangles e (quotedBody t) = Text.dangles e t := by
  induction t generalizing e with
  | nil => rfl
  | cons c t ih =>
    by_cases hc : c = '\''
    · rw [hc, quotedBody_apostrophe]
      simp [Text.escapesNext, ih]
    · rw [quotedBody_cons_of_ne hc, Text.dangles_cons, Text.dangles_cons, ih]

theorem lacks_quotedBody {d : Char} (ha : d ≠ '\'') (hb : d ≠ '\\') {e : Bool} {t : Text}
    (h : Text.Lacks d e t) : Text.Lacks d e (quotedBody t) := by
  induction t generalizing e with
  | nil => exact True.intro
  | cons c t ih =>
    obtain ⟨hc, ht⟩ := h
    by_cases hq : c = '\''
    · rw [hq, Text.escapesNext_of_ne (by decide)] at ht
      rw [hq, quotedBody_apostrophe]
      simp [Text.escapesNext, ha.symm, hb.symm, ih ht]
    · rw [quotedBody_cons_of_ne hq]
      exact ⟨hc, ih ht⟩

theorem stretches_map_quotedBody {d : Char} (ha : d ≠ '\'') (hb : d ≠ '\\') {e : Bool}
    {ts : List Text} (h : Text.Stretches d e ts) : Text.Stretches d e (ts.map quotedBody) := by
  induction ts generalizing e with
  | nil => exact h
  | cons t ts ih =>
    cases ts with
    | nil => exact lacks_quotedBody ha hb h
    | cons u us =>
      obtain ⟨ht, hdangles, hus⟩ := h
      exact ⟨lacks_quotedBody ha hb ht, by rwa [dangles_quotedBody], ih hus⟩

theorem join_map_quotedBody {d : Char} (ha : d ≠ '\'') (ts : List Text) :
    Text.join [d] (ts.map quotedBody) = quotedBody (Text.join [d] ts) := by
  induction ts with
  | nil => rfl
  | cons t ts ih =>
    cases ts with
    | nil => simp
    | cons u us =>
      rw [List.map_cons, List.map_cons, Text.join_cons_cons, Text.join_cons_cons, quotedBody_append,
        List.singleton_append, List.singleton_append, quotedBody_cons_of_ne ha, ← ih, List.map_cons]

/-- Backslashes are dropped inside quotes as outside, unless for apostrophes. -/
theorem unescape_quotedBody {p : Char → Bool} (hp : p '\'' = false) (t : Text) :
    Text.unescape p (quotedBody t) = quotedBody (Text.unescape p t) := by
  have hpair (u : Text) :
      Text.unescape p ('\\' :: '\'' :: u) = '\\' :: '\'' :: Text.unescape p u := by
    rw [Text.unescape, if_neg (by simp [hp])]
  fun_induction Text.unescape p t with
  | case1 c t hc ih =>
    have hne : c ≠ '\'' := by
      rintro rfl
      simp [hp] at hc
    rw [quotedBody_cons_of_ne (by decide), quotedBody_cons_of_ne hne, Text.unescape, if_pos hc, ih,
      quotedBody_cons_of_ne hne]
  | case2 c t hc ih =>
    have hback (u : Text) : quotedBody ('\\' :: u) = '\\' :: quotedBody u :=
      quotedBody_cons_of_ne (by decide) u
    by_cases hq : c = '\''
    · rw [hq, hback, hback, quotedBody_apostrophe, quotedBody_apostrophe, hpair, hpair,
        Text.unescape_cons_of_ne (by decide), ih]
    · rw [hback, hback, quotedBody_cons_of_ne hq, quotedBody_cons_of_ne hq, Text.unescape,
        if_neg hc, ih]
  | case3 c t hnot ih =>
    by_cases hq : c = '\''
    · rw [hq, quotedBody_apostrophe, quotedBody_apostrophe, Text.unescape_cons_of_ne (by decide),
        hpair, Text.unescape_cons_of_ne (by decide), ih]
    · rw [quotedBody_cons_of_ne hq, quotedBody_cons_of_ne hq]
      rcases Text.plain_or_last hnot with hb | ⟨rfl, rfl⟩
      · rw [Text.unescape_cons_of_ne hb, ih]
      · rfl
  | case4 => rfl

/-- A scanner stays in the quotes until they end. -/
theorem scanner_run_quotedBody (e : Bool) (t : Text) :
    Scanner.run ⟨.single, e⟩ true (quotedBody t) = ⟨.single, Text.dangles e t⟩ := by
  induction t generalizing e with
  | nil => rfl
  | cons c t ih =>
    by_cases hc : c = '\''
    · have hquote : Scanner.run ⟨.single, e⟩ true ['\'', '\\', '\'', '\''] = ⟨.single, false⟩ := by
        cases e <;> rfl
      have hescapes : Text.escapesNext e '\'' = false := Text.escapesNext_of_ne (by decide)
      rw [hc, Text.dangles_cons, hescapes, ← ih, ← hquote, ← Scanner.run_append]
      rfl
    · have hnext : Scanner.next ⟨.single, e⟩ c true = ⟨.single, Text.escapesNext e c⟩ := by
        by_cases hb : c = '\\' <;> cases e <;>
          simp [Scanner.next, Scanner.escapes, Scanner.closesSingle, QuoteContext.after,
            Text.escapesNext, hc, hb]
      rw [quotedBody_cons_of_ne hc, Scanner.run_cons, hnext, ih, Text.dangles_cons]

/-! ## Reading words back -/

namespace Splitter

/-- The reading with other words complete before its own. -/
def behind (ws : List Text) (s : Splitter) : Splitter := { s with words := s.words ++ ws.reverse }

theorem step_behind (ws : List Text) (s : Splitter) (c : Char) :
    (s.behind ws).step c = (s.step c).behind ws := by
  obtain ⟨phase, word, words⟩ := s
  cases phase <;> simp only [step, behind, enter, push, close] <;> split_ifs <;> rfl

theorem run_behind (ws : List Text) (s : Splitter) (t : Text) :
    (s.behind ws).run t = (s.run t).behind ws := by
  induction t generalizing s with
  | nil => rfl
  | cons c t ih => rw [run_cons, run_cons, step_behind, ih]

theorem finish_behind (ws : List Text) (s : Splitter) :
    (s.behind ws).finish = s.finish.map (ws ++ ·) := by
  unfold finish behind
  cases s.phase <;> simp [push, close]

/-- A reading that a blank leaves between words can also end there. -/
theorem finish_of_step {s : Splitter} {ws : List Text} (h : s.step ' ' = ⟨.delimiter, [], ws⟩) :
    s.finish = some ws.reverse := by
  obtain ⟨phase, word, words⟩ := s
  cases phase <;> simp [step, push, close, parts, escapedInDouble] at h <;>
    simp [finish, close, h]

theorem run_quotedBody (t w : Text) (ws : List Text) :
    run ⟨.singleQuoted, w, ws⟩ (quotedBody t) = ⟨.singleQuoted, t.reverse ++ w, ws⟩ := by
  induction t generalizing w with
  | nil => rfl
  | cons c t ih =>
    by_cases hc : c = '\''
    · have hquote : run ⟨.singleQuoted, w, ws⟩ ['\'', '\\', '\'', '\''] =
          ⟨.singleQuoted, '\'' :: w, ws⟩ := rfl
      have happend : quotedBody ('\'' :: t) = ['\'', '\\', '\'', '\''] ++ quotedBody t := rfl
      rw [hc, happend, run_append, hquote, ih]
      simp
    · have hstep : step ⟨.singleQuoted, w, ws⟩ c = ⟨.singleQuoted, c :: w, ws⟩ := by
        simp [step, push, hc]
      rw [quotedBody_cons_of_ne hc, run_cons, hstep, ih]
      simp

end Splitter

/-- A shell reads the words from the text, and a blank behind the text belongs to none of them. -/
def Spells (t : Text) (ws : List Text) : Prop :=
  (Splitter.run {} t).step ' ' = ⟨.delimiter, [], ws.reverse⟩

theorem Spells.split_eq {t : Text} {ws : List Text} (h : Spells t ws) : split t = some ws := by
  rw [split, Splitter.finish_of_step h, List.reverse_reverse]

/-- Behind a text that spells words, a line goes on as if it began there. -/
theorem Spells.split_append_space {t : Text} {ws : List Text} (h : Spells t ws) (u : Text) :
    split (t ++ ' ' :: u) = (split u).map (ws ++ ·) := by
  have hbehind : (⟨.delimiter, [], ws.reverse⟩ : Splitter) = Splitter.behind ws {} := rfl
  rw [split, Splitter.run_append, Splitter.run_cons, h, hbehind, Splitter.run_behind,
    Splitter.finish_behind]
  rfl

/-- Texts in a row spell all their words. -/
theorem split_join_of_spells {ts : List Text} {wss : List (List Text)}
    (h : List.Forall₂ Spells ts wss) : split (Text.join [' '] ts) = some wss.flatten := by
  induction h with
  | nil => rfl
  | @cons t ws ts wss ht hts ih =>
    cases hts with
    | nil => simpa using ht.split_eq
    | cons hu hus =>
      rw [Text.join_cons_cons, List.singleton_append, ht.split_append_space, ih]
      rfl

theorem spells_quoted (w : Text) : Spells ('\'' :: quotedBody w ++ ['\'']) [w] := by
  have hopen : Splitter.step {} '\'' = ⟨.singleQuoted, [], []⟩ := rfl
  unfold Spells
  rw [List.cons_append, Splitter.run_cons, hopen, Splitter.run_append, Splitter.run_quotedBody,
    List.append_nil]
  simp [Splitter.step, Splitter.enter, Splitter.close, Splitter.parts]

/-! ## Words without quotes -/

/-- No character of the text parts words or escapes outside quotes. -/
def Unbroken (v : Text) : Prop := ∀ c ∈ v, c ∉ [' ', '\t', '\n', '\\']

instance (v : Text) : Decidable (Unbroken v) :=
  List.decidableBAll (fun c => c ∉ [' ', '\t', '\n', '\\']) v

theorem unbroken_cons {c : Char} {v : Text} :
    Unbroken (c :: v) ↔ c ∉ [' ', '\t', '\n', '\\'] ∧ Unbroken v := List.forall_mem_cons

theorem escapeTerm_plain_cons (c : Char) (v : Text) :
    escapeTerm .plain (c :: v) =
      (if isQuote c then ['\\', c] else [c]) ++ escapeTerm .plain v := rfl

theorem escapeTerm_plain_append (t u : Text) :
    escapeTerm .plain (t ++ u) = escapeTerm .plain t ++ escapeTerm .plain u := by
  simp [escapeTerm]

theorem ne_apostrophe_of_not_quote {c : Char} (h : ¬isQuote c = true) : c ≠ '\'' := by
  rintro rfl
  exact h rfl

theorem ne_quote_of_not_quote {c : Char} (h : ¬isQuote c = true) : c ≠ '"' := by
  rintro rfl
  exact h rfl

namespace Splitter

/-- In a word outside quotes, a character joins it as it is escaped. -/
theorem run_escaped {c : Char} (h : c ∉ [' ', '\t', '\n', '\\']) (w : Text) (ws : List Text) :
    run ⟨.unquoted, w, ws⟩ (if isQuote c then ['\\', c] else [c]) = ⟨.unquoted, c :: w, ws⟩ := by
  simp only [List.mem_cons, List.not_mem_nil, or_false, not_or] at h
  by_cases hq : isQuote c = true
  · simp [hq, step, enter, push, h]
  · simp [hq, step, push, parts, h, ne_apostrophe_of_not_quote hq, ne_quote_of_not_quote hq]

/-- Between words it begins one, unless it begins a comment. -/
theorem run_escaped_first {c : Char} (h : c ∉ [' ', '\t', '\n', '\\']) (hc : c ≠ '#')
    (ws : List Text) :
    run ⟨.delimiter, [], ws⟩ (if isQuote c then ['\\', c] else [c]) = ⟨.unquoted, [c], ws⟩ := by
  simp only [List.mem_cons, List.not_mem_nil, or_false, not_or] at h
  by_cases hq : isQuote c = true
  · simp [hq, step, enter, push, h]
  · simp [hq, step, push, parts, h, hc, ne_apostrophe_of_not_quote hq, ne_quote_of_not_quote hq]

theorem run_escapeTerm {v : Text} (h : Unbroken v) (w : Text) (ws : List Text) :
    run ⟨.unquoted, w, ws⟩ (escapeTerm .plain v) = ⟨.unquoted, v.reverse ++ w, ws⟩ := by
  induction v generalizing w with
  | nil => rfl
  | cons c v ih =>
    obtain ⟨hc, hv⟩ := unbroken_cons.mp h
    rw [escapeTerm_plain_cons, run_append, run_escaped hc, ih hv]
    simp

end Splitter

/-- Outside quotes a text spells itself, or nothing when it is empty. -/
theorem spells_escaped {v : Text} (h : Unbroken v) (hhash : v.head? ≠ some '#') :
    Spells (escapeTerm .plain v) (if v = [] then [] else [v]) := by
  cases v with
  | nil => rfl
  | cons c v =>
    obtain ⟨hc, hv⟩ := unbroken_cons.mp h
    have hfirst := Splitter.run_escaped_first hc (by simpa using hhash) []
    unfold Spells
    rw [escapeTerm_plain_cons, Splitter.run_append, hfirst, Splitter.run_escapeTerm hv]
    simp [Splitter.step, Splitter.close, Splitter.parts]

/-- The characters of a bare word stand for themselves. -/
theorem not_special_of_isBare {w : Text} (h : isBare w = true) {c : Char} (hc : c ∈ w) :
    c ∉ specials := by
  have hany : w.any isSpecial = false := by
    have hboth := Bool.and_eq_true_iff.mp h
    simpa using hboth.2
  have hspecial := List.any_eq_false.mp hany c hc
  simpa [isSpecial] using hspecial

theorem isQuote_of_not_special {c : Char} (h : c ∉ specials) : isQuote c = false := by
  by_contra hquote
  refine h ?_
  simp only [isQuote, Bool.not_eq_false, Bool.or_eq_true, decide_eq_true_eq] at hquote
  obtain rfl | rfl := hquote <;> decide

/-- Without quotes in it, a text is written outside quotes as it is. -/
theorem escapeTerm_plain_of_not_special {w : Text} (h : ∀ c ∈ w, c ∉ specials) :
    escapeTerm .plain w = w := by
  induction w with
  | nil => rfl
  | cons c w ih =>
    have hq := isQuote_of_not_special (h c List.mem_cons_self)
    rw [escapeTerm_plain_cons, hq, ih fun x hx => h x (List.mem_cons_of_mem _ hx)]
    rfl

/-! ## Quoted words -/

/-- A quoted word is read back as it was. -/
theorem spells_quote (w : Text) : Spells (quote w) [w] := by
  rw [quote]
  by_cases hbare : isBare w = true
  · rw [if_pos hbare]
    have hspecial : ∀ c ∈ w, c ∉ specials := fun c hc => not_special_of_isBare hbare hc
    have hunbroken : Unbroken w := by
      intro c hc hbad
      refine hspecial c hc ?_
      simp only [List.mem_cons, List.not_mem_nil, or_false] at hbad
      obtain rfl | rfl | rfl | rfl := hbad <;> decide
    have hhash : w.head? ≠ some '#' := fun h =>
      hspecial '#' (List.mem_of_mem_head? h) (by decide)
    have hne : w ≠ [] := by
      rintro rfl
      exact absurd hbare (by decide)
    have hspells := spells_escaped hunbroken hhash
    rwa [if_neg hne, escapeTerm_plain_of_not_special hspecial] at hspells
  · rw [if_neg hbare]
    exact spells_quoted w

/-- A line of quoted words is split into the words. -/
theorem split_join (ws : List Text) : split (join ws) = some ws := by
  have hspells : List.Forall₂ Spells (ws.map quote) (ws.map fun w => [w]) := by
    rw [List.forall₂_map_left_iff, List.forall₂_map_right_iff, List.forall₂_same]
    exact fun w _ => spells_quote w
  have hflatten : (ws.map fun w => [w]).flatten = ws := by
    rw [← List.flatMap_def, List.flatMap_singleton']
  rw [join, split_join_of_spells hspells, hflatten]

end ShellWord

end Fanout
