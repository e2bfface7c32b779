import Fanout.Proofs.Words
import Fanout.Proofs.Writing

/-!
# Unquoting undoes escaping

A value is written for the quotes that its slot stands in, and the body of a group is read from
inside the quotes of its word. Between single quotes, and between double ones, every value comes
back as it was, whatever pieces of its own encoding it has in it. Outside quotes a backslash in
front of a quote of the value is taken for the one that would be written: such a value is changed,
and no other is.

* `unescape_escapeTerm_iff`: the values that come back outside quotes.
* `unquoteBody_escaped`: all three contexts, and what a shell makes of the single quotes.
-/

namespace Fanout

open ShellWord (escapeTerm_plain_cons)

/-- Outside quotes, a value comes back when none of its quotes is escaped. An escaped one gets a
second backslash in front of it, and the two are kept as a pair. -/
theorem unescape_escapeTerm_iff {t : Text} :
    Text.unescape isQuote (escapeTerm .plain t) = t ↔ Text.Frees isQuote false t := by
  have hquote {c : Char} (hc : isQuote c = true) : c ≠ '\\' := by
    rintro rfl
    exact absurd hc (by decide)
  have hpair (c : Char) (u : Text) : escapeTerm .plain ('\\' :: c :: u) =
      '\\' :: ((if isQuote c then ['\\', c] else [c]) ++ escapeTerm .plain u) := rfl
  fun_induction Text.unescape isQuote t with
  | case1 c t hc ih =>
    refine iff_of_false ?_ ?_
    · intro h
      rw [hpair, if_pos hc, List.cons_append, Text.unescape, if_neg (by decide)] at h
      exact hquote hc (List.cons.inj (List.cons.inj h).2).1.symm
    · intro h
      have hrest := (Text.frees_cons.mp h).2
      exact absurd ((Text.frees_cons.mp hrest).1 hc) (by decide)
  | case2 c t hc ih =>
    rw [hpair, if_neg hc, List.singleton_append, Text.unescape, if_neg hc, Text.frees_cons,
      Text.frees_cons]
    simp [ih, hc, Text.escapesNext, show isQuote '\\' = false from rfl]
  | case3 c t hnot ih =>
    rcases Text.plain_or_last hnot with hb | ⟨rfl, rfl⟩
    · have hrest : Text.Frees isQuote false (c :: t) ↔ Text.Frees isQuote false t := by
        rw [Text.frees_cons, Text.escapesNext_of_ne hb]
        exact and_iff_right fun _ => rfl
      have hfirst : Text.unescape isQuote (escapeTerm .plain (c :: t)) =
          c :: Text.unescape isQuote (escapeTerm .plain t) := by
        rw [escapeTerm_plain_cons]
        split_ifs with hc
        · rw [List.cons_append, List.singleton_append, Text.unescape, if_pos hc]
        · rw [List.singleton_append, Text.unescape_cons_of_ne hb]
      rw [hrest, hfirst, List.cons_inj_right]
      exact ih
    · exact iff_of_true rfl (by decide)
  | case4 => exact iff_of_true rfl Text.frees_nil

/-- What is written of a value is read back as the value: between single quotes and between double
ones always, and outside quotes when no quote in it stands right behind an odd run of backslashes.
Between its single quotes a shell reads the same value as one word. -/
theorem unquoteBody_escaped (t : Text) :
    unquoteBody .single (escapeTerm .single t) = t ∧
      unquoteBody .double (escapeTerm .double t) = t ∧
      (unquoteBody .plain (escapeTerm .plain t) = t ↔
        ∀ u c w, t = u ++ c :: w → isQuote c = true → Text.trailingBackslashes u % 2 = 0) ∧
      ShellWord.split ('\'' :: (escapeTerm .single t ++ ['\''])) = some [t] := by
  have hsingle : escapeTerm .single t = ShellWord.quotedBody t := rfl
  refine ⟨?_, rfl, ?_, ?_⟩
  · rw [hsingle]
    exact ShellWord.readApostrophes_quotedBody t
  · simp only [Text.even_trailingBackslashes_iff]
    exact unescape_escapeTerm_iff
  · rw [hsingle]
    exact (ShellWord.spells_quoted t).split_eq

/-- A value that is itself written like the inside of single quotes. -/
example : unquoteBody .single (escapeTerm .single "a'\\''b\\'".toList) = "a'\\''b\\'".toList ∧
    unquoteBody .plain (escapeTerm .plain "a'\\''b".toList) = "a'\\\\''b".toList := by decide

end Fanout
