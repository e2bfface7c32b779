import Fanout.Quote.Escape
import Mathlib.Data.List.Induction

/-!
# Stretches between unescaped characters

Whether a character is escaped depends on the backslashes in front of it and on nothing else: not
on quotes, and not on whether they are tracked. So a text falls apart into stretches at its
unescaped delimiters, and the stretches can be looked at one by one.

* `Text.dangles`: what follows the text is escaped. It is what `isEscaped` counts
  (`isEscaped_append`) and what every scanner remembers (`Scanner.run_escaping`).
* `Text.Lacks d`: no unescaped `d` stands in the text.
* `Text.Stretches d`: texts that can stand between unescaped `d`. A text is cut into such texts in
  one way (`stretches_splitUnescaped`, `splitUnescaped_join`).
-/

namespace Fanout

namespace Text

/-! ## What follows is escaped -/

/-- Whether what follows `c` is escaped, when `e` tells whether `c` is. -/
def escapesNext (e : Bool) (c : Char) : Bool := !e && c = '\\'

/-- Whether what follows the text is escaped, when `e` tells whether its first character is. -/
def dangles (e : Bool) (t : Text) : Bool := t.foldl escapesNext e

@[simp] theorem dangles_nil (e : Bool) : dangles e [] = e := rfl

@[simp] theorem dangles_cons (e : Bool) (c : Char) (t : Text) :
    dangles e (c :: t) = dangles (escapesNext e c) t := rfl

@[simp] theorem dangles_append (e : Bool) (t u : Text) :
    dangles e (t ++ u) = dangles (dangles e t) u := by
  simp [dangles]

theorem escapesNext_of_ne {e : Bool} {c : Char} (h : c ≠ '\\') : escapesNext e c = false := by
  simp [escapesNext, h]

/-- A text without a backslash escapes nothing. -/
theorem dangles_of_not_mem {t : Text} (h : '\\' ∉ t) : dangles false t = false := by
  induction t with
  | nil => rfl
  | cons c t ih =>
    rw [List.mem_cons, not_or] at h
    rw [dangles_cons, escapesNext_of_ne (Ne.symm h.1)]
    exact ih h.2

/-- What lets something behind it be escaped is a backslash at the end. -/
theorem exists_of_dangles {t : Text} (h : dangles false t = true) : ∃ u, t = u ++ ['\\'] := by
  rcases List.eq_nil_or_concat t with rfl | ⟨u, c, rfl⟩
  · exact absurd h (by simp)
  · rw [List.concat_eq_append, dangles_append, dangles_cons, dangles_nil] at h
    have hc : c = '\\' := by
      by_contra hc
      rw [escapesNext_of_ne hc] at h
      exact Bool.noConfusion h
    exact ⟨u, by rw [hc, List.concat_eq_append]⟩

theorem trailingBackslashes_concat (t : Text) (c : Char) :
    trailingBackslashes (t ++ [c]) = if c = '\\' then trailingBackslashes t + 1 else 0 := by
  by_cases h : c = '\\' <;> simp [trailingBackslashes, h]

/-- What follows a text is escaped when the text ends in an odd run of backslashes. -/
theorem dangles_eq_odd (t : Text) : dangles false t = decide (trailingBackslashes t % 2 = 1) := by
  induction t using List.reverseRecOn with
  | nil => rfl
  | append_singleton t c ih =>
    rw [dangles_append, trailingBackslashes_concat, dangles_cons, dangles_nil, escapesNext, ih]
    by_cases h : c = '\\'
    · have hodd : decide ((trailingBackslashes t + 1) % 2 = 1)
          = !decide (trailingBackslashes t % 2 = 1) := by
        rw [← decide_not]
        exact decide_eq_decide.mpr (by omega)
      rw [if_pos h, hodd, decide_eq_true h, Bool.and_true]
    · simp [h]

theorem even_trailingBackslashes_iff (t : Text) :
    trailingBackslashes t % 2 = 0 ↔ dangles false t = false := by
  rw [dangles_eq_odd, decide_eq_false_iff_not]
  omega

end Text

namespace Scanner

theorem next_escaping (s : Scanner) (c : Char) (tracked : Bool) :
    (s.next c tracked).escaping = Text.escapesNext s.escaping c := by
  unfold next escapes Text.escapesNext
  cases he : s.escaping <;> cases hc : s.closesSingle c tracked <;>
    by_cases hb : c = '\\' <;> cases tracked <;> simp [hb, he]

/-- Tracking quotes or not makes no difference to what is escaped. -/
theorem run_escaping (s : Scanner) (tracked : Bool) (t : Text) :
    (s.run tracked t).escaping = Text.dangles s.escaping t := by
  induction t generalizing s with
  | nil => rfl
  | cons c t ih => rw [run_cons, ih, next_escaping, Text.dangles_cons]

/-- Only an apostrophe can be saved from being escaped. -/
theorem escapes_of_ne {c : Char} (h : c ≠ '\'') (s : Scanner) (tracked : Bool) :
    s.escapes c tracked = s.escaping := by
  simp [escapes, closesSingle, h]

/-- Without tracking, a text that escapes nothing behind it leaves the scanner as it is. -/
theorem run_untracked {s : Scanner} {t : Text} (hs : s.escaping = false)
    (ht : Text.dangles false t = false) : s.run false t = s := by
  have hcontext (u : Text) (s : Scanner) : (s.run false u).context = s.context := by
    induction u generalizing s with
    | nil => rfl
    | cons c u ih =>
      rw [run_cons, ih]
      unfold next
      rw [escapes_untracked]
      cases s.escaping <;> by_cases hb : c = '\\' <;> simp [hb]
  have hescaping : (s.run false t).escaping = s.escaping := by rw [run_escaping, hs, ht]
  exact congrArg₂ Scanner.mk (hcontext t s) hescaping

end Scanner

namespace Text

/-! ## Texts without an unescaped character -/

/-- No unescaped `d` stands in the text, when `e` tells whether its first character is escaped. -/
def Lacks (d : Char) : Bool → Text → Prop
  | _, [] => True
  | e, c :: t => (c = d → e = true) ∧ Lacks d (escapesNext e c) t

@[simp] theorem lacks_nil (d : Char) (e : Bool) : Lacks d e [] := True.intro

@[simp] theorem lacks_cons {d c : Char} {e : Bool} {t : Text} :
    Lacks d e (c :: t) ↔ (c = d → e = true) ∧ Lacks d (escapesNext e c) t := Iff.rfl

theorem lacks_of_not_mem {d : Char} {t : Text} (h : d ∉ t) (e : Bool) : Lacks d e t := by
  induction t generalizing e with
  | nil => exact True.intro
  | cons c t ih =>
    rw [List.mem_cons, not_or] at h
    exact ⟨fun hc => absurd hc.symm h.1, ih h.2 _⟩

theorem lacks_append {d : Char} {e : Bool} {t u : Text} :
    Lacks d e (t ++ u) ↔ Lacks d e t ∧ Lacks d (dangles e t) u := by
  induction t generalizing e with
  | nil => simp
  | cons c t ih => simp [ih, and_assoc]

/-- Texts that can stand between unescaped `d`: none has one in it, and only the last may escape
what follows it. -/
def Stretches (d : Char) : Bool → List Text → Prop
  | _, [] => False
  | e, [t] => Lacks d e t
  | e, t :: u :: ts => Lacks d e t ∧ dangles e t = false ∧ Stretches d false (u :: ts)

@[simp] theorem stretches_singleton {d : Char} {e : Bool} {t : Text} :
    Stretches d e [t] ↔ Lacks d e t := Iff.rfl

@[simp] theorem stretches_cons_cons {d : Char} {e : Bool} {t u : Text} {ts : List Text} :
    Stretches d e (t :: u :: ts) ↔
      Lacks d e t ∧ dangles e t = false ∧ Stretches d false (u :: ts) := Iff.rfl

@[simp] theorem join_singleton (glue t : Text) : join glue [t] = t := by
  simp [join, List.intercalate]

@[simp] theorem join_cons_cons (glue t u : Text) (ts : List Text) :
    join glue (t :: u :: ts) = t ++ (glue ++ join glue (u :: ts)) := by
  simp [join, List.intercalate]

/-- A character in front of the first stretch. -/
theorem stretches_cons_head {d c : Char} {e : Bool} {t : Text} {ts : List Text}
    (hc : c = d → e = true) (h : Stretches d (escapesNext e c) (t :: ts)) :
    Stretches d e ((c :: t) :: ts) := by
  cases ts with
  | nil => exact ⟨hc, h⟩
  | cons u us =>
    obtain ⟨ht, hd, hus⟩ := h
    exact ⟨⟨hc, ht⟩, hd, hus⟩

theorem splitFrom_ne_nil (d : Char) (s : Scanner) (t : Text) : splitFrom d s t ≠ [] := by
  induction t generalizing s with
  | nil => simp [splitFrom]
  | cons c t ih =>
    rw [splitFrom]
    split
    · simp
    · obtain ⟨p, ps, hp⟩ := List.exists_cons_of_ne_nil (ih (s.next c false))
      simp [hp]

/-- The pieces of a text are stretches, and the text is what they join to. -/
theorem splitFrom_spec {d : Char} (hd : d ≠ '\\') (s : Scanner) (t : Text) :
    Stretches d s.escaping (splitFrom d s t) ∧ join [d] (splitFrom d s t) = t := by
  induction t generalizing s with
  | nil => exact ⟨True.intro, join_singleton [d] []⟩
  | cons c t ih =>
    obtain ⟨hstretch, hjoin⟩ := ih (s.next c false)
    rw [Scanner.next_escaping] at hstretch
    obtain ⟨p, ps, hp⟩ := List.exists_cons_of_ne_nil (splitFrom_ne_nil d (s.next c false) t)
    rw [hp] at hstretch hjoin
    rw [splitFrom, Scanner.escapes_untracked, hp]
    cases he : s.escaping with
    | true =>
      rw [he] at hstretch
      have hhead := stretches_cons_head (d := d) (fun _ => rfl) hstretch
      refine ⟨by simpa using hhead, ?_⟩
      cases ps <;> simp_all
    | false =>
      rw [he] at hstretch
      by_cases hc : c = d
      · subst hc
        rw [escapesNext_of_ne hd] at hstretch
        refine ⟨by simpa using hstretch, ?_⟩
        simp [hjoin]
      · have hhead := stretches_cons_head (fun h => absurd h hc) hstretch
        refine ⟨by simpa [hc] using hhead, ?_⟩
        cases ps <;> simp_all

theorem stretches_splitUnescaped {d : Char} (hd : d ≠ '\\') (t : Text) :
    Stretches d false (splitUnescaped d t) := (splitFrom_spec hd .start t).1

theorem join_splitUnescaped {d : Char} (hd : d ≠ '\\') (t : Text) :
    join [d] (splitUnescaped d t) = t := (splitFrom_spec hd .start t).2

theorem splitFrom_append {d : Char} {s : Scanner} {t : Text} (h : Lacks d s.escaping t)
    (u : Text) : splitFrom d s (t ++ u) = (splitFrom d (s.run false t) u).modifyHead (t ++ ·) := by
  induction t generalizing s with
  | nil => cases hu : splitFrom d s u <;> simp [hu]
  | cons c t ih =>
    obtain ⟨hc, ht⟩ := h
    have hnext := ih (s := s.next c false) (by rwa [Scanner.next_escaping])
    rw [List.cons_append, splitFrom, hnext, Scanner.escapes_untracked, Scanner.run_cons]
    cases splitFrom d ((s.next c false).run false t) u <;> by_cases hcd : c = d <;> simp_all

/-- A text is cut at its unescaped `d` in one way. -/
theorem splitFrom_join {d : Char} (hd : d ≠ '\\') {s : Scanner} {ts : List Text}
    (h : Stretches d s.escaping ts) : splitFrom d s (join [d] ts) = ts := by
  induction ts generalizing s with
  | nil => exact absurd h id
  | cons t ts ih =>
    cases ts with
    | nil =>
      have happ := splitFrom_append (stretches_singleton.mp h) []
      simpa [splitFrom] using happ
    | cons u us =>
      obtain ⟨ht, hdangles, hus⟩ := h
      have hrun : (s.run false t).escaping = false := by rw [Scanner.run_escaping, hdangles]
      have hnext : ((s.run false t).next d false).escaping = false := by
        rw [Scanner.next_escaping, escapesNext_of_ne hd]
      have htail := ih (s := (s.run false t).next d false) (by rwa [hnext])
      rw [join_cons_cons, splitFrom_append ht, List.singleton_append, splitFrom, htail,
        Scanner.escapes_untracked, hrun]
      simp

theorem splitUnescaped_join {d : Char} (hd : d ≠ '\\') {ts : List Text}
    (h : Stretches d false ts) : splitUnescaped d (join [d] ts) = ts := splitFrom_join hd h

/-! ## Dropping backslashes stretch by stretch -/

theorem unescape_cons_of_ne {p : Char → Bool} {c : Char} (hc : c ≠ '\\') (t : Text) :
    unescape p (c :: t) = c :: unescape p t :=
  unescape.eq_2 p c t fun _ _ hx => absurd hx hc

/-- A character that begins no pair is not a backslash, unless it is the last one. -/
theorem plain_or_last {c : Char} {t : Text} (h : ∀ x u, c = '\\' → t = x :: u → False) :
    c ≠ '\\' ∨ c = '\\' ∧ t = [] := by
  by_cases hc : c = '\\'
  · cases t with
    | nil => exact .inr ⟨hc, rfl⟩
    | cons x u => exact absurd rfl (h x u hc)
  · exact .inl hc

/-- Backslashes are dropped on either side of a place that they do not reach over. -/
theorem unescape_append {p : Char → Bool} {t : Text} (h : dangles false t = false) (u : Text) :
    unescape p (t ++ u) = unescape p t ++ unescape p u := by
  fun_induction unescape p t with
  | case1 c t hp ih =>
    simp only [dangles_cons] at h
    rw [List.cons_append, List.cons_append, unescape, if_pos hp,
      ih (by simpa [escapesNext] using h), List.cons_append]
  | case2 c t hp ih =>
    simp only [dangles_cons] at h
    rw [List.cons_append, List.cons_append, unescape, if_neg hp,
      ih (by simpa [escapesNext] using h), List.cons_append, List.cons_append]
  | case3 c t hpair ih =>
    rcases plain_or_last hpair with hc | ⟨rfl, rfl⟩
    · rw [dangles_cons, escapesNext_of_ne hc] at h
      rw [List.cons_append, unescape_cons_of_ne hc, ih h, List.cons_append]
    · exact absurd h (by decide)
  | case4 => rfl

/-- A character that is neither dropped for nor a backslash stands for itself everywhere. -/
theorem unescape_append_cons {p : Char → Bool} {c : Char} (hp : p c = false) (hc : c ≠ '\\')
    (t u : Text) : unescape p (t ++ c :: u) = unescape p t ++ c :: unescape p u := by
  fun_induction unescape p t with
  | case1 x t hx ih =>
    rw [List.cons_append, List.cons_append, unescape, if_pos hx, ih, List.cons_append]
  | case2 x t hx ih =>
    rw [List.cons_append, List.cons_append, unescape, if_neg hx, ih, List.cons_append,
      List.cons_append]
  | case3 x t hpair ih =>
    rcases plain_or_last hpair with hx | ⟨rfl, rfl⟩
    · rw [List.cons_append, unescape_cons_of_ne hx, ih, List.cons_append]
    · simp [unescape, hp]
  | case4 => exact unescape_cons_of_ne hc u

theorem unescape_of_not_mem {p : Char → Bool} {t : Text} (h : '\\' ∉ t) : unescape p t = t := by
  induction t with
  | nil => rfl
  | cons c t ih =>
    rw [List.mem_cons, not_or] at h
    rw [unescape_cons_of_ne (Ne.symm h.1), ih h.2]

/-- A text without the characters that backslashes escape keeps its backslashes. -/
theorem unescape_of_forall {p : Char → Bool} {t : Text} (h : ∀ c ∈ t, p c = false) :
    unescape p t = t := by
  fun_induction unescape p t with
  | case1 c t hp => simp [h c (by simp)] at hp
  | case2 c t _ ih => rw [ih fun x hx => h x (by simp [hx])]
  | case3 c t _ ih => rw [ih fun x hx => h x (List.mem_cons_of_mem _ hx)]
  | case4 => rfl

theorem dangles_unescape {p : Char → Bool} (hp : p '\\' = false) {t : Text}
    (h : dangles false t = false) : dangles false (unescape p t) = false := by
  fun_induction unescape p t with
  | case1 c t hc ih =>
    have hb : c ≠ '\\' := by
      rintro rfl
      simp [hp] at hc
    rw [dangles_cons, escapesNext_of_ne hb]
    exact ih (by simpa [escapesNext] using h)
  | case2 c t hc ih =>
    have hpair (u : Text) : dangles false ('\\' :: c :: u) = dangles false u := by
      simp [escapesNext]
    rw [hpair] at h ⊢
    exact ih h
  | case3 c t hpair ih =>
    rcases plain_or_last hpair with hb | ⟨rfl, rfl⟩
    · rw [dangles_cons, escapesNext_of_ne hb] at h ⊢
      exact ih h
    · exact absurd h (by decide)
  | case4 => exact h

/-- Dropping backslashes leaves the other characters in their order. -/
theorem unescape_sublist (p : Char → Bool) (t : Text) : (unescape p t).Sublist t := by
  fun_induction unescape p t with
  | case1 c t hc ih => exact (ih.cons_cons c).cons '\\'
  | case2 c t hc ih => exact (ih.cons_cons c).cons_cons '\\'
  | case3 c t hnot ih => exact ih.cons_cons c
  | case4 => exact .slnil

theorem unescape_ne_nil {p : Char → Bool} {t : Text} (h : t ≠ []) : unescape p t ≠ [] := by
  fun_induction unescape p t with
  | case1 => simp
  | case2 => simp
  | case3 => simp
  | case4 => exact h

/-- No stretch dangles when the whole text does not. -/
theorem dangles_of_mem_stretches {d : Char} (hd : d ≠ '\\') {t : Text} : ∀ {ts : List Text},
    Stretches d false ts → dangles false (join [d] ts) = false → t ∈ ts →
      dangles false t = false
  | [], h, _, _ => absurd h id
  | [u], _, h, ht => by
    obtain rfl := List.mem_singleton.mp ht
    rwa [join_singleton] at h
  | u :: v :: ts, h, hall, ht => by
    obtain ⟨-, hu, hrest⟩ := h
    obtain rfl | ht := List.mem_cons.mp ht
    · exact hu
    · refine dangles_of_mem_stretches hd hrest ?_ ht
      rw [join_cons_cons, dangles_append, hu, List.singleton_append, dangles_cons,
        escapesNext_of_ne hd] at hall
      exact hall

end Text

end Fanout
