import Fanout.Proofs.Words

/-!
# Values outside quotes

Outside quotes, a value is written with a backslash before each of its quotes, and before each space
when it is the name of a node, but before nothing else. Which values does a shell read back? Those
in which every blank is escaped and nothing comes behind a backslash, unless they begin as a comment,
and no others, however the quotes behind a backslash play together.

The word that a shell gathers is compared with what it has read of the value. As long as both are
equal, a word goes on outside quotes. Once the word has fallen behind it never catches up: `Lags`
says which part of the value is missing in each phase, and each character of the value keeps it or
spoils the word.

* `Splitter.Begins`: the word so far is where the first word begins (`Begins.run`).
* `Splitter.lagsOn_of_lags`: one character of the value; `finish_ne_of_lags`: the rest of it.
* `split_quoteTerm_iff`: the values that come back; `split_escapeTerm_iff` of them those that do not
  end with a backslash.
* `split_nodeName_iff`: the names that come back.
-/

namespace Fanout

namespace ShellWord

/-! ## Characters in a slot -/

/-- Outside quotes a character is written with a backslash: a quote, and a space of the name of a
node. -/
def isSlotEscaped (node : Bool) (c : Char) : Bool := isQuote c || (node && c = ' ')

/-- A character as it is written outside quotes. -/
def slotChar (node : Bool) (c : Char) : Text := if isSlotEscaped node c then ['\\', c] else [c]

theorem quoteTerm_plain_nil (node : Bool) : quoteTerm .plain node [] = [] := by
  cases node <;> rfl

theorem quoteTerm_plain_cons (node : Bool) (c : Char) (v : Text) :
    quoteTerm .plain node (c :: v) = slotChar node c ++ quoteTerm .plain node v := by
  cases node with
  | false =>
    have hslot : slotChar false c = if isQuote c then ['\\', c] else [c] := by
      simp [slotChar, isSlotEscaped]
    rw [hslot]
    rfl
  | true =>
    have hcons : quoteTerm .plain true (c :: v) =
        escapeTerm .plain (if c = ' ' then ['\\', ' '] else [c]) ++ quoteTerm .plain true v := by
      simp [quoteTerm, escapeSpaces, escapeTerm_plain_append]
    rw [hcons]
    by_cases hc : c = ' '
    · rw [hc]
      rfl
    · simp [hc, slotChar, isSlotEscaped, escapeTerm]

theorem slotChar_backslash (node : Bool) : slotChar node '\\' = ['\\'] := by
  simp [slotChar, isSlotEscaped, isQuote]

section Escaped

variable {node : Bool} {c : Char}

theorem ne_apostrophe_of_not_escaped (h : ¬isSlotEscaped node c = true) : c ≠ '\'' := by
  rintro rfl
  exact h rfl

theorem ne_quote_of_not_escaped (h : ¬isSlotEscaped node c = true) : c ≠ '"' := by
  rintro rfl
  exact h rfl

theorem ne_newline_of_escaped (h : isSlotEscaped node c = true) : c ≠ '\n' := by
  rintro rfl
  exact absurd h (by simp [isSlotEscaped, isQuote])

/-- Of the characters that get a backslash, double quotes take it from their own quote alone. -/
theorem escapedInDouble_of_escaped (h : isSlotEscaped node c = true) (hd : c ≠ '"') :
    c ≠ '\\' ∧ c ≠ '\n' ∧ Splitter.escapedInDouble c = false := by
  have hc : c = '\'' ∨ c = ' ' := by
    have hcases : (c = '\'' ∨ c = '"') ∨ node = true ∧ c = ' ' := by
      simpa [isSlotEscaped, isQuote] using h
    tauto
  obtain rfl | rfl := hc <;> decide

end Escaped

namespace Splitter

/-! ## How the first word begins -/

/-- The first word of the reading, complete or not, begins with `w`. -/
def Begins (w : Text) (s : Splitter) : Prop :=
  match s.words.getLast? with
  | none => w <+: s.word.reverse
  | some x => w <+: x

theorem Begins.enter {w : Text} {s : Splitter} (h : s.Begins w) (p : Phase) :
    (s.enter p).Begins w := h

theorem Begins.push {w : Text} {s : Splitter} (h : s.Begins w) (p : Phase) (c : Char) :
    (s.push p c).Begins w := by
  unfold Begins Splitter.push at *
  cases hl : s.words.getLast? with
  | none =>
    simp only [hl, List.reverse_cons] at h ⊢
    exact h.trans (List.prefix_append _ _)
  | some x =>
    simp only [hl] at h ⊢
    exact h

theorem Begins.close {w : Text} {s : Splitter} (h : s.Begins w) : s.close.Begins w := by
  unfold Begins Splitter.close at *
  cases hl : s.words.getLast? with
  | none =>
    obtain hnil := List.getLast?_eq_none_iff.mp hl
    simpa [hnil] using h
  | some x =>
    rw [List.getLast?_cons, hl]
    simpa [hl] using h

theorem Begins.step {w : Text} {s : Splitter} (h : s.Begins w) (c : Char) :
    (s.step c).Begins w := by
  unfold Splitter.step
  split <;> split_ifs <;>
    first
      | exact h
      | exact h.close
      | exact h.enter _
      | exact h.push _ _
      | exact (h.push _ _).push _ _

theorem Begins.run {w : Text} {s : Splitter} (h : s.Begins w) (t : Text) : (s.run t).Begins w := by
  induction t generalizing s with
  | nil => exact h
  | cons c t ih => exact ih (h.step c)

theorem Begins.finish {w x : Text} {s : Splitter} (h : s.Begins w) (hx : s.finish = some [x]) :
    w <+: x := by
  have hcomplete {s : Splitter} (h : s.Begins w) (hx : s.words.reverse = [x]) : w <+: x := by
    have hwords : s.words = [x] := by simpa using congrArg List.reverse hx
    simpa [Begins, hwords] using h
  unfold Splitter.finish at hx
  split at hx
  · exact hcomplete h (Option.some.inj hx)
  · exact hcomplete h (Option.some.inj hx)
  · exact hcomplete h.close (Option.some.inj hx)
  · exact hcomplete (h.push _ _).close (Option.some.inj hx)
  · exact hcomplete (h.push _ _).close (Option.some.inj hx)
  · exact absurd hx (by simp)
  · exact absurd hx (by simp)
  · exact absurd hx (by simp)

/-! ## A word that has fallen behind -/

/-- The word lacks `q` of what was read of a value, and `v` of the value is still to come. In single
quotes an apostrophe is among what it lacks, which cannot join it there; in double quotes it lacks
more than a backslash. -/
def Lags (v : Text) : Phase → Text → Prop
  | .delimiter, q | .unquoted, q | .comment, q => q ≠ []
  | .backslash, q | .unquotedBackslash, q => q ≠ [] ∧ 2 ≤ (q ++ v).length
  | .singleQuoted, q => '\'' ∈ q
  | .doubleQuoted, q => q ≠ [] ∧ q ≠ ['\\']
  | .doubleQuotedBackslash, q => 2 ≤ q.length

theorem Lags.ne_nil {v q : Text} {p : Phase} (h : Lags v p q) : q ≠ [] := by
  cases p with
  | delimiter | unquoted | comment => exact h
  | backslash | unquotedBackslash => exact h.1
  | doubleQuoted => exact h.1
  | singleQuoted => exact List.ne_nil_of_mem h
  | doubleQuotedBackslash =>
    rintro rfl
    exact absurd h (by simp [Lags])

/-- What a character of a value does to a lagging word: it ends the word too early, or lets some
characters join it, and if those are the ones it lacks then it lags on. -/
def LagsOn (v q : Text) (c : Char) (w : Text) (s : Splitter) : Prop :=
  (∃ xs, s = ⟨.delimiter, [], [w.reverse ++ xs]⟩ ∧ xs.length ≤ q.length) ∨
    ∃ p xs, s = ⟨p, xs.reverse ++ w, []⟩ ∧ xs.length ≤ q.length + 1 ∧
      ∀ q', q ++ [c] = xs ++ q' → Lags v p q'

section Pending

variable {v q q' xs : Text} {c : Char}

theorem length_pending (h : q ++ [c] = xs ++ q') : q.length + 1 = xs.length + q'.length := by
  simpa using congrArg List.length h

theorem ne_nil_of_pending (h : q ++ [c] = xs ++ q') (hlen : xs.length ≤ q.length) : q' ≠ [] := by
  rintro rfl
  have hlength := length_pending h
  simp only [List.length_nil] at hlength
  omega

/-- What is lacking still ends with what was read last. -/
theorem eq_of_pending_singleton {x : Char} (h : q ++ [c] = xs ++ [x]) : c = x := by
  simpa using congrArg List.getLast? h

theorem mem_of_pending {x : Char} (h : q ++ [c] = xs ++ q') (hx : x ∈ q ++ [c]) (hxs : x ∉ xs) :
    x ∈ q' := by
  rw [h] at hx
  exact (List.mem_append.mp hx).resolve_left hxs

/-- Behind a backslash, a text lags that lacked something before it. -/
theorem lags_backslash (h : q ++ [c] = [] ++ q') (hq : q ≠ []) : Lags v .backslash q' := by
  have hpos := List.length_pos_iff.mpr hq
  have hlength := length_pending h
  simp only [List.length_nil] at hlength
  refine ⟨ne_nil_of_pending h (Nat.zero_le _), ?_⟩
  rw [List.length_append]
  omega

theorem lags_doubleQuoted (h : q ++ [c] = xs ++ q') (hlen : xs.length ≤ q.length) (hc : c ≠ '\\') :
    Lags v .doubleQuoted q' := by
  refine ⟨ne_nil_of_pending h hlen, ?_⟩
  rintro rfl
  exact hc (eq_of_pending_singleton h)

/-- A text of two characters or more lags in double quotes too. -/
theorem lags_doubleQuoted_of_length (h : 2 ≤ q'.length) : Lags v .doubleQuoted q' := by
  refine ⟨?_, ?_⟩
  · rintro rfl
    exact absurd h (by simp)
  · rintro rfl
    exact absurd h (by simp)

end Pending

section Step

variable {node : Bool} {v q : Text} {c : Char} (w : Text)

theorem lagsOn_unquoted (hq : q ≠ []) :
    LagsOn v q c w (run ⟨.unquoted, w, []⟩ (slotChar node c)) := by
  have hpos := List.length_pos_iff.mpr hq
  by_cases hescaped : isSlotEscaped node c = true
  · have hn := ne_newline_of_escaped hescaped
    refine .inr ⟨.unquoted, [c], ?_, by simp, fun q' h => ne_nil_of_pending h hpos⟩
    simp [slotChar, hescaped, step, enter, push, hn]
  have ha := ne_apostrophe_of_not_escaped hescaped
  have hd := ne_quote_of_not_escaped hescaped
  by_cases hb : c = '\\'
  · exact .inr ⟨.unquotedBackslash, [], by simp [hb, slotChar_backslash, step, enter],
      by simp, fun q' h => lags_backslash h hq⟩
  by_cases hp : parts c = true
  · refine .inl ⟨[], ?_, Nat.zero_le _⟩
    simp [slotChar, hescaped, step, close, ha, hd, hb, hp]
  · refine .inr ⟨.unquoted, [c], ?_, by simp, fun q' h => ne_nil_of_pending h hpos⟩
    simp [slotChar, hescaped, step, push, ha, hd, hb, hp]

theorem lagsOn_delimiter (hq : q ≠ []) :
    LagsOn v q c w (run ⟨.delimiter, w, []⟩ (slotChar node c)) := by
  have hpos := List.length_pos_iff.mpr hq
  by_cases hescaped : isSlotEscaped node c = true
  · have hn := ne_newline_of_escaped hescaped
    refine .inr ⟨.unquoted, [c], ?_, by simp, fun q' h => ne_nil_of_pending h hpos⟩
    simp [slotChar, hescaped, step, enter, push, hn]
  have ha := ne_apostrophe_of_not_escaped hescaped
  have hd := ne_quote_of_not_escaped hescaped
  by_cases hb : c = '\\'
  · exact .inr ⟨.backslash, [], by simp [hb, slotChar_backslash, step, enter],
      by simp, fun q' h => lags_backslash h hq⟩
  by_cases hp : parts c = true
  · refine .inr ⟨.delimiter, [], ?_, by simp, fun q' h => ne_nil_of_pending h (Nat.zero_le _)⟩
    simp [slotChar, hescaped, step, ha, hd, hb, hp]
  by_cases hh : c = '#'
  · refine .inr ⟨.comment, [], ?_, by simp, fun q' h => ne_nil_of_pending h (Nat.zero_le _)⟩
    simp [hh, slotChar, isSlotEscaped, isQuote, step, enter, parts]
  · refine .inr ⟨.unquoted, [c], ?_, by simp, fun q' h => ne_nil_of_pending h hpos⟩
    simp [slotChar, hescaped, step, push, ha, hd, hb, hp, hh]

theorem lagsOn_comment : LagsOn v q c w (run ⟨.comment, w, []⟩ (slotChar node c)) := by
  by_cases hn : c = '\n'
  · refine .inr ⟨.delimiter, [], by simp [hn, slotChar, isSlotEscaped, isQuote, step, enter],
      by simp, fun q' h => ?_⟩
    exact ne_nil_of_pending h (Nat.zero_le _)
  · refine .inr ⟨.comment, [], ?_, by simp, fun q' h => ne_nil_of_pending h (Nat.zero_le _)⟩
    unfold slotChar
    split <;> simp [step, hn]

/-- Behind a backslash outside quotes, a quote opens and does not join the word, and an escaped space
ends it. -/
theorem lagsOn_backslash {p : Phase} (hp : p = .backslash ∨ p = .unquotedBackslash) (hq : q ≠ []) :
    LagsOn v q c w (run ⟨p, w, []⟩ (slotChar node c)) := by
  have hpos := List.length_pos_iff.mpr hq
  by_cases ha : c = '\''
  · refine .inr ⟨.singleQuoted, ['\\'], ?_, by simp, fun q' h => ?_⟩
    · obtain rfl | rfl := hp <;> simp [ha, slotChar, isSlotEscaped, isQuote, step, enter, push]
    · exact mem_of_pending h (by simp [ha]) (by simp)
  by_cases hd : c = '"'
  · refine .inr ⟨.doubleQuoted, ['\\'], ?_, by simp, fun q' h => ?_⟩
    · obtain rfl | rfl := hp <;> simp [hd, slotChar, isSlotEscaped, isQuote, step, enter, push]
    · exact lags_doubleQuoted h hpos (by simp [hd])
  by_cases hs : node = true ∧ c = ' '
  · obtain ⟨rfl, rfl⟩ := hs
    refine .inl ⟨['\\'], ?_, hpos⟩
    obtain rfl | rfl := hp <;> simp [slotChar, isSlotEscaped, isQuote, step, push, close, parts]
  have hescaped : isSlotEscaped node c = false := by simpa [isSlotEscaped, isQuote, ha, hd] using hs
  by_cases hn : c = '\n'
  · obtain rfl | rfl := hp
    · refine .inr ⟨.delimiter, [], by simp [hn, slotChar, isSlotEscaped, isQuote, step, enter], by simp,
        fun q' h => ?_⟩
      exact ne_nil_of_pending h (Nat.zero_le _)
    · refine .inr ⟨.unquoted, [], by simp [hn, slotChar, isSlotEscaped, isQuote, step, enter], by simp,
        fun q' h => ?_⟩
      exact ne_nil_of_pending h (Nat.zero_le _)
  · refine .inr ⟨.unquoted, [c], ?_, by simp, fun q' h => ne_nil_of_pending h hpos⟩
    obtain rfl | rfl := hp <;> simp [slotChar, hescaped, step, push, hn]

/-- In single quotes an apostrophe only ever leaves them, so none joins the word. -/
theorem lagsOn_singleQuoted (hq : '\'' ∈ q) :
    LagsOn v q c w (run ⟨.singleQuoted, w, []⟩ (slotChar node c)) := by
  have hpos := List.length_pos_of_mem hq
  have hmem : '\'' ∈ q ++ [c] := List.mem_append_left _ hq
  by_cases ha : c = '\''
  · refine .inr ⟨.unquoted, ['\\'],
      by simp [ha, slotChar, isSlotEscaped, isQuote, step, enter, push], by simp, fun q' h => ?_⟩
    exact ne_nil_of_pending h hpos
  by_cases hescaped : isSlotEscaped node c = true
  · refine .inr ⟨.singleQuoted, ['\\', c], by simp [slotChar, hescaped, step, push, ha],
      Nat.succ_le_succ hpos, fun q' h => ?_⟩
    exact mem_of_pending h hmem (by simpa using Ne.symm ha)
  · refine .inr ⟨.singleQuoted, [c], by simp [slotChar, hescaped, step, push, ha], by simp,
      fun q' h => ?_⟩
    exact mem_of_pending h hmem (by simpa using Ne.symm ha)

theorem lagsOn_doubleQuoted (hq : q ≠ []) (hback : q ≠ ['\\']) :
    LagsOn v q c w (run ⟨.doubleQuoted, w, []⟩ (slotChar node c)) := by
  have hpos := List.length_pos_iff.mpr hq
  by_cases hd : c = '"'
  · refine .inr ⟨.doubleQuoted, ['"'], ?_, by simp,
      fun q' h => lags_doubleQuoted h hpos (by simp [hd])⟩
    simp [hd, slotChar, isSlotEscaped, isQuote, step, enter, push, escapedInDouble]
  by_cases hescaped : isSlotEscaped node c = true
  · obtain ⟨hb, hn, he⟩ := escapedInDouble_of_escaped hescaped hd
    refine .inr ⟨.doubleQuoted, ['\\', c], ?_, Nat.succ_le_succ hpos, fun q' h => ?_⟩
    · simp [slotChar, hescaped, step, enter, push, hn, he]
    · -- a word that lacks one character alone lacks no backslash, so this is not the last one
      refine lags_doubleQuoted h ?_ hb
      by_contra hlt
      obtain ⟨x, rfl⟩ : ∃ x, q = [x] := List.length_eq_one_iff.mp (by simp at hlt; omega)
      simp only [List.cons_append, List.nil_append, List.cons.injEq] at h
      exact hback (by rw [h.1])
  by_cases hb : c = '\\'
  · refine .inr ⟨.doubleQuotedBackslash, [],
      by simp [hb, slotChar_backslash, step, enter], by simp, fun q' h => ?_⟩
    have hlength := length_pending h
    simp only [List.length_nil] at hlength
    show 2 ≤ q'.length
    omega
  · refine .inr ⟨.doubleQuoted, [c], by simp [slotChar, hescaped, step, push, hd, hb], by simp,
      fun q' h => ?_⟩
    exact lags_doubleQuoted h hpos hb

theorem lagsOn_doubleQuotedBackslash (hq : 2 ≤ q.length) :
    LagsOn v q c w (run ⟨.doubleQuotedBackslash, w, []⟩ (slotChar node c)) := by
  by_cases hd : c = '"'
  · refine .inr ⟨.unquoted, ['\\'], ?_, by simp, fun q' h => ne_nil_of_pending h (by simp; omega)⟩
    simp [hd, slotChar, isSlotEscaped, isQuote, step, enter, push, escapedInDouble]
  by_cases hescaped : isSlotEscaped node c = true
  · obtain ⟨hb, hn, he⟩ := escapedInDouble_of_escaped hescaped hd
    refine .inr ⟨.doubleQuoted, ['\\', c], ?_, Nat.le_succ_of_le hq, fun q' h => ?_⟩
    · simp [slotChar, hescaped, step, push, hd, hb, escapedInDouble]
    · exact lags_doubleQuoted h hq hb
  by_cases hn : c = '\n'
  · refine .inr ⟨.doubleQuoted, [], by simp [hn, slotChar, isSlotEscaped, isQuote, step, enter], by simp,
      fun q' h => ?_⟩
    have hlength := length_pending h
    simp only [List.length_nil] at hlength
    exact lags_doubleQuoted_of_length (by omega)
  by_cases he : escapedInDouble c = true
  · refine .inr ⟨.doubleQuoted, [c], by simp [slotChar, hescaped, step, push, hn, he], by simp,
      fun q' h => ?_⟩
    have hlength := length_pending h
    simp only [List.length_singleton] at hlength
    exact lags_doubleQuoted_of_length (by omega)
  · refine .inr ⟨.doubleQuoted, ['\\', c], by simp [slotChar, hescaped, step, push, hn, he],
      Nat.le_succ_of_le hq, fun q' h => ?_⟩
    have hb : c ≠ '\\' := by
      rintro rfl
      exact he rfl
    exact lags_doubleQuoted h hq hb

end Step

theorem lagsOn_of_lags {node : Bool} {v q : Text} {c : Char} {p : Phase} (h : Lags (c :: v) p q)
    (w : Text) : LagsOn v q c w (run ⟨p, w, []⟩ (slotChar node c)) := by
  cases p with
  | delimiter => exact lagsOn_delimiter w h
  | backslash => exact lagsOn_backslash w (.inl rfl) h.1
  | unquoted => exact lagsOn_unquoted w h
  | unquotedBackslash => exact lagsOn_backslash w (.inr rfl) h.1
  | singleQuoted => exact lagsOn_singleQuoted w h
  | doubleQuoted => exact lagsOn_doubleQuoted w h.1 h.2
  | doubleQuotedBackslash => exact lagsOn_doubleQuotedBackslash w h
  | comment => exact lagsOn_comment w

/-- At the end of the value, a lagging word is not all of it. -/
theorem finish_ne_of_lags_nil {q : Text} {p : Phase} (h : Lags [] p q) (w : Text) :
    finish ⟨p, w, []⟩ ≠ some [w.reverse ++ q] := by
  have hpos := List.length_pos_iff.mpr h.ne_nil
  intro hfinish
  cases p with
  | delimiter | comment => exact absurd hfinish (by simp [finish])
  | unquoted =>
    have hword : w.reverse = w.reverse ++ q := by simpa [finish, close] using hfinish
    exact h (List.append_right_eq_self.mp hword.symm)
  | backslash | unquotedBackslash =>
    obtain ⟨-, hlength⟩ := h
    have hword : w.reverse ++ ['\\'] = w.reverse ++ q := by
      simpa [finish, close, push] using hfinish
    rw [← List.append_cancel_left hword] at hlength
    exact absurd hlength (by simp)
  | singleQuoted | doubleQuoted | doubleQuotedBackslash => exact absurd hfinish (by simp [finish])

/-- A character that makes a word lag spoils it, if lagging words do not catch up over the rest. -/
theorem finish_ne_of_lagsOn {node : Bool} {v q w : Text} {c : Char} {s : Splitter}
    (h : LagsOn v q c w s)
    (hrest : ∀ {p : Phase} {q : Text}, Lags v p q → ∀ w : Text,
      (run ⟨p, w, []⟩ (quoteTerm .plain node v)).finish ≠ some [w.reverse ++ (q ++ v)]) :
    (s.run (quoteTerm .plain node v)).finish ≠ some [w.reverse ++ (q ++ c :: v)] := by
  obtain ⟨xs, rfl, hlength⟩ | ⟨p, xs, rfl, hlength, hlags⟩ := h
  · -- the first word is complete, and too short
    have hbehind : (⟨.delimiter, [], [w.reverse ++ xs]⟩ : Splitter) =
        behind [w.reverse ++ xs] {} := rfl
    rw [hbehind, run_behind, finish_behind]
    intro hfinish
    obtain ⟨ws, -, hws⟩ := Option.map_eq_some_iff.mp hfinish
    have hword : w.reverse ++ xs = w.reverse ++ (q ++ c :: v) := (List.cons.inj hws).1
    have hlong := congrArg List.length (List.append_cancel_left hword)
    rw [List.length_append, List.length_cons] at hlong
    omega
  · intro hfinish
    -- what has joined the word is what it lacked
    have hbegins : Begins (xs.reverse ++ w).reverse ⟨p, xs.reverse ++ w, []⟩ := List.prefix_refl _
    obtain ⟨rest, htext⟩ := (hbegins.run _).finish hfinish
    rw [List.reverse_append, List.reverse_reverse, List.append_assoc] at htext
    have hsplit : xs ++ rest = q ++ [c] ++ v := by simpa using List.append_cancel_left htext
    obtain ⟨q', hq'⟩ : ∃ q', q ++ [c] = xs ++ q' := by
      refine (List.prefix_of_prefix_length_le ⟨rest, hsplit⟩ (List.prefix_append _ _) ?_).imp
        fun _ h => h.symm
      rwa [List.length_append, List.length_singleton]
    have hwhole : (xs.reverse ++ w).reverse ++ (q' ++ v) = w.reverse ++ (q ++ c :: v) := by
      have hcons : q ++ c :: v = xs ++ (q' ++ v) := by
        rw [← List.append_assoc, ← hq', List.append_assoc, List.singleton_append]
      rw [hcons, List.reverse_append, List.reverse_reverse, List.append_assoc]
    refine hrest (hlags q' hq') (xs.reverse ++ w) ?_
    rw [hwhole, hfinish]

/-- A lagging word never catches up. -/
theorem finish_ne_of_lags {node : Bool} {v q : Text} {p : Phase} (h : Lags v p q) (w : Text) :
    (run ⟨p, w, []⟩ (quoteTerm .plain node v)).finish ≠ some [w.reverse ++ (q ++ v)] := by
  induction v generalizing p q w with
  | nil =>
    rw [List.append_nil, quoteTerm_plain_nil]
    exact finish_ne_of_lags_nil h w
  | cons c v ih =>
    rw [quoteTerm_plain_cons, run_append]
    exact finish_ne_of_lagsOn (lagsOn_of_lags h w) ih

/-- The character breaks the word that a value is to be: it parts words and is not escaped, or it is
a backslash with something behind it. -/
def Breaks (node : Bool) (v : Text) (c : Char) : Prop :=
  parts c = true ∧ isSlotEscaped node c = false ∨ c = '\\' ∧ v ≠ []

section Breaks

variable {node : Bool} {v : Text} {c : Char}

/-- In a word outside quotes, a blank ends the word, and a backslash lets it fall behind. -/
theorem lagsOn_of_breaks (h : Breaks node v c) (w : Text) :
    LagsOn v [] c w (run ⟨.unquoted, w, []⟩ (slotChar node c)) := by
  rcases h with ⟨hparts, hescaped⟩ | ⟨rfl, hv⟩
  · refine .inl ⟨[], ?_, Nat.le_refl _⟩
    rw [slotChar, hescaped, if_neg (by decide), List.append_nil]
    obtain (rfl | rfl) | rfl : (c = ' ' ∨ c = '\t') ∨ c = '\n' := by simpa [parts] using hparts
    all_goals rfl
  · refine .inr ⟨.unquotedBackslash, [], by rw [slotChar_backslash]; rfl, by simp, fun q' h => ?_⟩
    obtain rfl : ['\\'] = q' := h
    have hpos := List.length_pos_iff.mpr hv
    exact ⟨by simp, by simp; omega⟩

/-- Between words, a blank is left out, and so is a comment. -/
theorem lagsOn_of_breaks_first (h : Breaks node v c ∨ c = '#') :
    LagsOn v [] c [] (run {} (slotChar node c)) := by
  have hlags {p : Phase} (hp : p = .delimiter ∨ p = .comment) (q' : Text)
      (h : [] ++ [c] = [] ++ q') : Lags v p q' := by
    obtain rfl : [c] = q' := h
    obtain rfl | rfl := hp <;> simp [Lags]
  rcases h with (⟨hparts, hescaped⟩ | ⟨rfl, hv⟩) | rfl
  · refine .inr ⟨.delimiter, [], ?_, by simp, hlags (.inl rfl)⟩
    rw [slotChar, hescaped, if_neg (by decide)]
    obtain (rfl | rfl) | rfl : (c = ' ' ∨ c = '\t') ∨ c = '\n' := by simpa [parts] using hparts
    all_goals rfl
  · refine .inr ⟨.backslash, [], by rw [slotChar_backslash]; rfl, by simp, fun q' h => ?_⟩
    obtain rfl : ['\\'] = q' := h
    have hpos := List.length_pos_iff.mpr hv
    exact ⟨by simp, by simp; omega⟩
  · have hslot : slotChar node '#' = ['#'] := by simp [slotChar, isSlotEscaped, isQuote]
    exact .inr ⟨.comment, [], by rw [hslot]; rfl, by simp, hlags (.inr rfl)⟩

theorem eq_nil_of_not_breaks (h : ¬Breaks node v c) (hb : c = '\\') : v = [] := by
  by_contra hv
  exact h (.inr ⟨hb, hv⟩)

/-- A character that does not break its word joins it as it is written. -/
theorem run_slotChar (h : ¬Breaks node v c) (hb : c ≠ '\\') (w : Text) (ws : List Text) :
    run ⟨.unquoted, w, ws⟩ (slotChar node c) = ⟨.unquoted, c :: w, ws⟩ := by
  by_cases hescaped : isSlotEscaped node c = true
  · have hn := ne_newline_of_escaped hescaped
    simp [slotChar, hescaped, step, enter, push, hn]
  · have hparts : parts c = false := by simpa [Breaks, hescaped, hb] using h
    simp [slotChar, hescaped, step, push, hparts, hb, ne_apostrophe_of_not_escaped hescaped,
      ne_quote_of_not_escaped hescaped]

/-- Between words it begins one, unless it begins a comment. -/
theorem run_slotChar_first (h : ¬Breaks node v c) (hb : c ≠ '\\') (hc : c ≠ '#') :
    run {} (slotChar node c) = ⟨.unquoted, [c], []⟩ := by
  by_cases hescaped : isSlotEscaped node c = true
  · have hn := ne_newline_of_escaped hescaped
    simp [slotChar, hescaped, step, enter, push, hn]
  · have hparts : parts c = false := by simpa [Breaks, hescaped, hb] using h
    simp [slotChar, hescaped, step, push, hparts, hb, hc, ne_apostrophe_of_not_escaped hescaped,
      ne_quote_of_not_escaped hescaped]

end Breaks

end Splitter

/-! ## Values that come back -/

/-- A shell reads the value as one word, or as a part of one: no character of it parts words unless
it is escaped, and no backslash has anything behind it. -/
def Whole (node : Bool) (v : Text) : Prop :=
  (∀ c ∈ v, Splitter.parts c = true → isSlotEscaped node c = true) ∧ '\\' ∉ v.dropLast

theorem whole_cons {node : Bool} {c : Char} {v : Text} :
    Whole node (c :: v) ↔ ¬Splitter.Breaks node v c ∧ Whole node v := by
  have hlast : '\\' ∉ (c :: v).dropLast ↔ ¬(c = '\\' ∧ v ≠ []) ∧ '\\' ∉ v.dropLast := by
    cases v with
    | nil => simp
    | cons x v => simp [eq_comm]
  have hblank : (Splitter.parts c = true → isSlotEscaped node c = true) ↔
      ¬(Splitter.parts c = true ∧ isSlotEscaped node c = false) := by simp
  rw [Whole, List.forall_mem_cons, hlast, hblank, Whole, Splitter.Breaks, not_or]
  tauto

/-- In a word outside quotes, exactly the values come back that are whole. -/
theorem finish_quoteTerm_iff {node : Bool} {v : Text} (w : Text) :
    (Splitter.run ⟨.unquoted, w, []⟩ (quoteTerm .plain node v)).finish = some [w.reverse ++ v] ↔
      Whole node v := by
  induction v generalizing w with
  | nil =>
    rw [quoteTerm_plain_nil]
    exact iff_of_true (by simp [Splitter.finish, Splitter.close]) (by simp [Whole])
  | cons c v ih =>
    rw [quoteTerm_plain_cons, Splitter.run_append, whole_cons]
    by_cases hbreaks : Splitter.Breaks node v c
    · have hlags := Splitter.lagsOn_of_breaks hbreaks w
      exact iff_of_false (Splitter.finish_ne_of_lagsOn hlags Splitter.finish_ne_of_lags)
        fun h => h.1 hbreaks
    by_cases hb : c = '\\'
    · -- nothing is behind the backslash, and it stands for itself
      obtain rfl := Splitter.eq_nil_of_not_breaks hbreaks hb
      rw [hb, quoteTerm_plain_nil]
      refine iff_of_true ?_ ⟨hb ▸ hbreaks, by simp [Whole]⟩
      simp [slotChar_backslash, Splitter.step, Splitter.enter, Splitter.finish, Splitter.push,
        Splitter.close]
    · have hrest := ih (c :: w)
      rw [List.reverse_cons, List.append_assoc, List.singleton_append] at hrest
      rw [Splitter.run_slotChar hbreaks hb, hrest]
      exact (and_iff_right hbreaks).symm

/-- A value that is written outside quotes comes back as one word exactly when it is whole, not empty
and does not begin as a comment. -/
theorem split_quoteTerm_iff {node : Bool} {v : Text} :
    split (quoteTerm .plain node v) = some [v] ↔
      v ≠ [] ∧ Whole node v ∧ v.head? ≠ some '#' := by
  cases v with
  | nil =>
    rw [quoteTerm_plain_nil]
    exact iff_of_false (by decide) fun h => h.1 rfl
  | cons c v =>
    rw [split, quoteTerm_plain_cons, Splitter.run_append, whole_cons, List.head?_cons]
    by_cases hbreaks : Splitter.Breaks node v c ∨ c = '#'
    · have hlags := Splitter.lagsOn_of_breaks_first hbreaks
      refine iff_of_false (Splitter.finish_ne_of_lagsOn hlags Splitter.finish_ne_of_lags) ?_
      rintro ⟨-, ⟨hnot, -⟩, hhash⟩
      exact hbreaks.elim hnot fun hc => hhash (by rw [hc])
    obtain ⟨hbreaks, hhash⟩ := not_or.mp hbreaks
    by_cases hb : c = '\\'
    · obtain rfl := Splitter.eq_nil_of_not_breaks hbreaks hb
      rw [hb, quoteTerm_plain_nil]
      refine iff_of_true ?_ ⟨by simp, ⟨hb ▸ hbreaks, by simp [Whole]⟩, by decide⟩
      simp [slotChar_backslash, Splitter.step, Splitter.enter, Splitter.finish, Splitter.push,
        Splitter.close]
    · rw [Splitter.run_slotChar_first hbreaks hb hhash]
      have hrest : (Splitter.run ⟨.unquoted, [c], []⟩ (quoteTerm .plain node v)).finish =
          some [c :: v] ↔ Whole node v := finish_quoteTerm_iff [c]
      exact hrest.trans (by simp [hbreaks, hhash])

/-- Where nothing behind it is escaped, a value is whole when it has no blank and no backslash. -/
theorem whole_iff_unbroken {v : Text} (hdangles : Text.dangles false v = false) :
    Whole false v ↔ Unbroken v := by
  have hback : '\\' ∉ v.dropLast ↔ '\\' ∉ v := by
    refine ⟨fun h hmem => ?_, fun h hmem => h ((List.dropLast_sublist v).subset hmem)⟩
    obtain ⟨u, rfl⟩ : ∃ u, v = u ++ ['\\'] := by
      rcases List.eq_nil_or_concat v with rfl | ⟨u, c, rfl⟩
      · exact absurd hmem List.not_mem_nil
      · rw [List.concat_eq_append] at h hmem ⊢
        rw [List.dropLast_concat] at h
        obtain rfl : '\\' = c := by simpa [h] using hmem
        exact ⟨u, rfl⟩
    rw [List.dropLast_concat] at h
    rw [Text.dangles_append, Text.dangles_of_not_mem h] at hdangles
    exact absurd hdangles (by decide)
  rw [Whole, hback, Unbroken]
  constructor
  · rintro ⟨hparts, hb⟩ c hc hbad
    simp only [List.mem_cons, List.not_mem_nil, or_false] at hbad
    obtain rfl | rfl | rfl | rfl := hbad
    · exact absurd (hparts _ hc rfl) (by decide)
    · exact absurd (hparts _ hc rfl) (by decide)
    · exact absurd (hparts _ hc rfl) (by decide)
    · exact hb hc
  · refine fun h => ⟨fun c hc hparts => ?_, fun hmem => h _ hmem (by simp)⟩
    refine absurd ?_ (h c hc)
    simp only [Splitter.parts, Bool.or_eq_true, decide_eq_true_eq] at hparts
    simp only [List.mem_cons, List.not_mem_nil, or_false]
    tauto

/-- A value that is written outside quotes comes back as one word exactly when it has no blank and
no backslash and does not begin as a comment. -/
theorem split_escapeTerm_iff {v : Text} (hv : v ≠ []) (hdangles : Text.dangles false v = false) :
    split (escapeTerm .plain v) = some [v] ↔ Unbroken v ∧ v.head? ≠ some '#' := by
  have hwritten : escapeTerm .plain v = quoteTerm .plain false v := rfl
  rw [hwritten, split_quoteTerm_iff, whole_iff_unbroken hdangles]
  exact and_iff_right hv

/-! ## Names of nodes -/

/-- The name of a node comes back as one word exactly when it has no tab and no newline, no backslash
but as its last character, and does not begin as a comment. -/
theorem split_nodeName_iff {name : Text} :
    split (quoteTerm .plain true name) = some [name] ↔
      name ≠ [] ∧ '\t' ∉ name ∧ '\n' ∉ name ∧ '\\' ∉ name.dropLast ∧ name.head? ≠ some '#' := by
  have hblanks : (∀ c ∈ name, Splitter.parts c = true → isSlotEscaped true c = true) ↔
      '\t' ∉ name ∧ '\n' ∉ name := by
    constructor
    · exact fun h => ⟨fun hmem => absurd (h _ hmem rfl) (by decide),
        fun hmem => absurd (h _ hmem rfl) (by decide)⟩
    · rintro ⟨htab, hnewline⟩ c hc hparts
      obtain (rfl | rfl) | rfl : (c = ' ' ∨ c = '\t') ∨ c = '\n' := by
        simpa [Splitter.parts] using hparts
      · rfl
      · exact absurd hc htab
      · exact absurd hc hnewline
  rw [split_quoteTerm_iff, Whole, hblanks]
  tauto

/-- A name with a tab in it is read as two words. -/
theorem split_tabbedName : split (quoteTerm .plain true "a\tb".toList) = some [['a'], ['b']] := by
  decide

end ShellWord

end Fanout
