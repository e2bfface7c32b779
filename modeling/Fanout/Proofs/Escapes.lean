import Fanout.Glob.Escape
import Fanout.Proofs.Offsets
import Fanout.Quote.Slot

/-!
# One rule for escapes

Whether a character is escaped is one question, and `isEscaped` answers it by the backslashes in
front of the character. Everything else that reads backslashes goes along the text from the left, in
ways of its own: scanners with a state, `unescape` by pairs, the wildcards by looking at neighbours.
They all come to the same answer.

* `Text.without`: a text without the characters at some offsets; `Text.escapesAt`: where a backslash
  escapes a character of a kind.
* `escapes_eq`: what a scanner takes as escaped, whichever characters it tracks quotes on.
* `unescape_eq_without`, `unescape_unescape`: `unescape` drops the backslashes that escape.
* `hasWildcards_iff`: what counts as a wildcard.
* `dropBefore_dropBefore`: dropping backslashes in front of some characters, and then in front of
  others, drops nothing twice. So one walk does what a row of replacements does.
* `readers_agree`: all of it.
-/

namespace Fanout

namespace Text

/-! ## Characters by their offsets -/

/-- The character that begins at the byte offset. -/
def charAt? (n : Nat) (t : Text) : Option Char :=
  if isBoundary n t then (beyond n t).head? else none

/-- The text without the characters at the offsets with `p`, when it begins at offset `n`. -/
def withoutFrom (n : Nat) (p : Nat → Bool) : Text → Text
  | [] => []
  | c :: t =>
    if p n then withoutFrom (n + c.utf8Size) p t else c :: withoutFrom (n + c.utf8Size) p t

/-- The text without the characters at the offsets with `p`. -/
def without (p : Nat → Bool) (t : Text) : Text := withoutFrom 0 p t

/-- At the offset stands a backslash, and right behind it a character with `p`. -/
def standsBefore (p : Char → Bool) (t : Text) (n : Nat) : Bool :=
  charAt? n t = some '\\' && (charAt? (n + 1) t).any p

/-- At the offset stands a backslash, and right behind it an escaped character with `p`. -/
def escapesAt (p : Char → Bool) (t : Text) (n : Nat) : Bool :=
  standsBefore p t n && t.isEscaped (n + 1)

theorem charAt?_byteLength (u t : Text) : charAt? (byteLength u) (u ++ t) = t.head? := by
  rw [charAt?, isBoundary_byteLength, if_pos rfl, beyond_byteLength]

theorem byteLength_concat (u : Text) (c : Char) :
    byteLength (u ++ [c]) = byteLength u + c.utf8Size := by
  simp

/-- A character that begins at an offset parts the text there. -/
theorem exists_of_charAt? {n : Nat} {t : Text} {c : Char} (h : charAt? n t = some c) :
    ∃ u v, t = u ++ c :: v ∧ byteLength u = n := by
  rw [charAt?] at h
  split_ifs at h with hn
  exact exists_of_isBoundary hn h

section Behind

variable (p : Char → Bool) (u t : Text) (c : Char)

theorem standsBefore_byteLength :
    standsBefore p (u ++ c :: t) (byteLength u) = (c = '\\' && t.head?.any p) := by
  rw [standsBefore, charAt?_byteLength]
  by_cases hc : c = '\\'
  · have hnext := charAt?_byteLength (u ++ ['\\']) t
    have hsize : '\\'.utf8Size = 1 := by decide
    rw [byteLength_concat, hsize, List.append_assoc, List.singleton_append] at hnext
    rw [hc, hnext]
    simp
  · simp [hc]

theorem escapesAt_byteLength :
    escapesAt p (u ++ c :: t) (byteLength u) =
      (escapesNext (dangles false u) c && t.head?.any p) := by
  rw [escapesAt, standsBefore_byteLength]
  by_cases hc : c = '\\'
  · have hescaped := isEscaped_byteLength (u ++ ['\\']) t
    have hsize : '\\'.utf8Size = 1 := by decide
    rw [byteLength_concat, hsize, List.append_assoc, List.singleton_append, dangles_append,
      dangles_cons, dangles_nil] at hescaped
    rw [hc, hescaped]
    cases escapesNext (dangles false u) '\\' <;> simp
  · simp [hc, escapesNext]

theorem withoutFrom_cons (q : Nat → Bool) :
    withoutFrom (byteLength u) q (c :: t) =
      if q (byteLength u) then withoutFrom (byteLength (u ++ [c])) q t
      else c :: withoutFrom (byteLength (u ++ [c])) q t := by
  rw [withoutFrom, byteLength_concat]

end Behind

/-! ## Dropping what escapes -/

section Unescape

variable {p : Char → Bool} {u : Text} (hu : dangles false u = false)

include hu

/-- Behind a backslash that is not escaped itself, its character is, and nothing behind the two. -/
theorem withoutFrom_pair (c : Char) (t : Text) :
    withoutFrom (byteLength u) (escapesAt p (u ++ '\\' :: c :: t)) ('\\' :: c :: t) =
      (if p c then [c] else ['\\', c]) ++
        withoutFrom (byteLength (u ++ ['\\'] ++ [c])) (escapesAt p (u ++ '\\' :: c :: t)) t := by
  have hfirst := escapesAt_byteLength p u (c :: t) '\\'
  have hsecond := escapesAt_byteLength p (u ++ ['\\']) t c
  rw [← List.append_cons] at hsecond
  have hopen : escapesNext (dangles false (u ++ ['\\'])) c = false := by simp [hu, escapesNext]
  rw [hu, List.head?_cons, Option.any_some] at hfirst
  rw [hopen, Bool.false_and] at hsecond
  rw [withoutFrom_cons, withoutFrom_cons, hfirst, hsecond]
  by_cases hc : p c = true
  · simp [hc, escapesNext]
  · simp [hc]

theorem unescape_eq_withoutFrom {t : Text} :
    unescape p t = withoutFrom (byteLength u) (escapesAt p (u ++ t)) t := by
  fun_induction unescape p t generalizing u with
  | case1 c t hc ih =>
    have hpair : dangles false (u ++ ['\\'] ++ [c]) = false := by simp [hu, escapesNext]
    rw [withoutFrom_pair hu, if_pos hc, ih hpair]
    simp
  | case2 c t hc ih =>
    have hpair : dangles false (u ++ ['\\'] ++ [c]) = false := by simp [hu, escapesNext]
    rw [withoutFrom_pair hu, if_neg hc, ih hpair]
    simp
  | case3 c t hnot ih =>
    rw [withoutFrom_cons, escapesAt_byteLength]
    rcases plain_or_last hnot with hc | ⟨rfl, rfl⟩
    · have hnext : dangles false (u ++ [c]) = false := by simp [hu, escapesNext, hc]
      rw [ih hnext, escapesNext_of_ne hc]
      simp
    · simp [unescape, withoutFrom]
  | case4 => rfl

end Unescape

/-- Exactly the backslashes are dropped that escape a character with `p`. -/
theorem unescape_eq_without (p : Char → Bool) (t : Text) :
    unescape p t = without (escapesAt p t) t := by
  have hall := unescape_eq_withoutFrom (p := p) (u := []) (t := t) rfl
  exact hall

/-- What is left has nothing more to drop. -/
theorem unescape_unescape {p : Char → Bool} (hp : p '\\' = false) (t : Text) :
    unescape p (unescape p t) = unescape p t := by
  fun_induction unescape p t with
  | case1 c t hc ih =>
    have hb : c ≠ '\\' := by
      rintro rfl
      rw [hp] at hc
      exact Bool.noConfusion hc
    rw [unescape_cons_of_ne hb, ih]
  | case2 c t hc ih => rw [unescape, if_neg hc, ih]
  | case3 c t hnot ih =>
    rcases plain_or_last hnot with hc | ⟨rfl, rfl⟩
    · rw [unescape_cons_of_ne hc, ih]
    · rfl
  | case4 => rfl

/-! ## Dropping in front of a character, escaped or not -/

/-- Each backslash right in front of a character with `p` is dropped. For a single character this is
the replacement of the two characters by the second. -/
def dropBefore (p : Char → Bool) : Text → Text
  | [] => []
  | c :: t => if c = '\\' && t.head?.any p then dropBefore p t else c :: dropBefore p t

theorem dropBefore_eq_withoutFrom (p : Char → Bool) (u t : Text) :
    dropBefore p t = withoutFrom (byteLength u) (standsBefore p (u ++ t)) t := by
  induction t generalizing u with
  | nil => rfl
  | cons c t ih =>
    have hrest := ih (u ++ [c])
    rw [← List.append_cons] at hrest
    rw [dropBefore, withoutFrom_cons, standsBefore_byteLength, hrest]

theorem dropBefore_eq_without (p : Char → Bool) (t : Text) :
    dropBefore p t = without (standsBefore p t) t := dropBefore_eq_withoutFrom p [] t

theorem dropBefore_cons_of_ne {p : Char → Bool} {c : Char} (hc : c ≠ '\\') (t : Text) :
    dropBefore p (c :: t) = c :: dropBefore p t := by
  simp [dropBefore, hc]

theorem dropBefore_backslash (p : Char → Bool) (t : Text) :
    dropBefore p ('\\' :: t) =
      if t.head?.any p then dropBefore p t else '\\' :: dropBefore p t := by
  simp [dropBefore]

theorem dropBefore_false (t : Text) : dropBefore (fun _ => false) t = t := by
  induction t with
  | nil => rfl
  | cons c t ih =>
    have hnone : t.head?.any (fun _ => false) = false := by cases t <;> rfl
    rw [dropBefore, hnone, Bool.and_false, ih]
    rfl

theorem dropBefore_of_not_mem {p : Char → Bool} {t : Text} (h : '\\' ∉ t) :
    dropBefore p t = t := by
  induction t with
  | nil => rfl
  | cons c t ih =>
    rw [List.mem_cons, not_or] at h
    rw [dropBefore_cons_of_ne (Ne.symm h.1), ih h.2]

section Two

variable {p q : Char → Bool} (hp : p '\\' = false) (hq : q '\\' = false)
  (hpq : ∀ c, p c = true → q c = false)

include hp hq hpq

/-- Dropping in front of characters with `p` brings no character with `q` to the front. -/
theorem any_head?_dropBefore (t : Text) : (dropBefore p t).head?.any q = t.head?.any q := by
  cases t with
  | nil => rfl
  | cons c t =>
    by_cases hc : c = '\\'
    · rw [hc, dropBefore_backslash]
      cases t with
      | nil => rfl
      | cons x t =>
        by_cases hx : p x = true
        · -- the backslash is gone, and the character behind it is one that `q` does not ask for
          have hb : x ≠ '\\' := by
            rintro rfl
            rw [hp] at hx
            exact Bool.noConfusion hx
          rw [dropBefore_cons_of_ne hb]
          simp [hx, hpq x hx, hq]
        · simp [hx]
    · rw [dropBefore_cons_of_ne hc]
      rfl

/-- A backslash that is dropped for one kind of characters leaves none that is dropped for the
other, so both kinds can be looked at in one walk. -/
theorem dropBefore_dropBefore (t : Text) :
    dropBefore q (dropBefore p t) = dropBefore (fun c => p c || q c) t := by
  induction t with
  | nil => rfl
  | cons c t ih =>
    by_cases hc : c = '\\'
    · have hhead := any_head?_dropBefore hp hq hpq t
      have hboth : t.head?.any (fun c => p c || q c) = (t.head?.any p || t.head?.any q) := by
        cases t <;> rfl
      rw [hc, dropBefore_backslash, dropBefore_backslash, hboth]
      by_cases hany : t.head?.any p = true
      · rw [if_pos hany, ih, hany, Bool.true_or, if_pos rfl]
      · rw [if_neg hany, dropBefore_backslash, hhead, ih, Bool.not_eq_true _ |>.mp hany,
          Bool.false_or]
    · rw [dropBefore_cons_of_ne hc, dropBefore_cons_of_ne hc, dropBefore_cons_of_ne hc, ih]

end Two

/-- A row of walks, each for a character of its own, is one walk for all of them. -/
theorem foldl_dropBefore {ws : List Char} {p : Char → Bool} (hp : p '\\' = false)
    (hnew : ∀ w ∈ ws, p w = false) (hback : '\\' ∉ ws) (hnodup : ws.Nodup) (t : Text) :
    ws.foldl (fun u w => dropBefore (fun c => c = w) u) (dropBefore p t) =
      dropBefore (fun c => p c || ws.contains c) t := by
  induction ws generalizing p with
  | nil => simp
  | cons w ws ih =>
    rw [List.mem_cons, not_or] at hback
    obtain ⟨hw, hnodup⟩ := List.nodup_cons.mp hnodup
    obtain ⟨hpw, hnew⟩ := List.forall_mem_cons.mp hnew
    have hdisjoint : ∀ c, p c = true → decide (c = w) = false := by
      intro c hc
      apply decide_eq_false
      rintro rfl
      rw [hpw] at hc
      exact Bool.noConfusion hc
    have hone :=
      dropBefore_dropBefore (q := fun c => c = w) hp (decide_eq_false hback.1) hdisjoint t
    have hnew' : ∀ x ∈ ws, (p x || decide (x = w)) = false := by
      intro x hx
      have hne : x ≠ w := by
        rintro rfl
        exact hw hx
      simp [hnew x hx, hne]
    have hrest := ih (p := fun c => p c || c = w) (by simp [hp, hback.1]) hnew' hback.2 hnodup
    have hcontains : (fun c => (p c || decide (c = w)) || ws.contains c) =
        fun c => p c || (w :: ws).contains c := by
      funext c
      simp [Bool.or_assoc]
    rw [List.foldl_cons, hone, hrest, hcontains]

end Text

/-! ## Wildcards -/

namespace Glob

open Text

/-- The one walk over the text does what a replacement for each wildcard does, one after another. -/
theorem dropWildcardEscapes_eq_dropBefore (t : Text) :
    dropWildcardEscapes t = dropBefore isWildcard t := by
  fun_induction dropWildcardEscapes t with
  | case1 c t hc ih =>
    have hb : c ≠ '\\' := by
      rintro rfl
      exact absurd hc (by decide)
    rw [dropBefore_backslash, dropBefore_cons_of_ne hb, ih]
    simp [hc]
  | case2 c t hc ih =>
    rw [dropBefore_backslash, ih]
    simp [hc]
  | case3 c t hnot ih =>
    rcases plain_or_last hnot with hc | ⟨rfl, rfl⟩
    · rw [dropBefore_cons_of_ne hc, ih]
    · simp [dropBefore, dropWildcardEscapes]
  | case4 => rfl

theorem dropWildcardEscapes_eq_foldl (t : Text) :
    dropWildcardEscapes t =
      wildcards.foldl (fun u w => dropBefore (fun c => c = w) u) t := by
  have hall := @foldl_dropBefore wildcards (fun _ => false) rfl (fun _ _ => rfl) (by decide)
    (by decide) t
  rw [dropBefore_false] at hall
  rw [hall, dropWildcardEscapes_eq_dropBefore]
  rfl

/-- A wildcard counts when nothing in front of it escapes it. -/
theorem hasWildcardsFrom_iff {s : Scanner} {t : Text} :
    hasWildcardsFrom s t = true ↔
      ∃ u c v, t = u ++ c :: v ∧ isWildcard c = true ∧ dangles s.escaping u = false := by
  induction t generalizing s with
  | nil => simp [hasWildcardsFrom]
  | cons c t ih =>
    rw [hasWildcardsFrom, Scanner.escapes_untracked, Bool.or_eq_true, ih, Scanner.next_escaping]
    constructor
    · rintro (h | ⟨u, x, v, rfl, hx, hu⟩)
      · have hboth : s.escaping = false ∧ isWildcard c = true := by simpa using h
        exact ⟨[], c, t, rfl, hboth.2, hboth.1⟩
      · exact ⟨c :: u, x, v, rfl, hx, hu⟩
    · rintro ⟨u, x, v, h, hx, hu⟩
      cases u with
      | nil =>
        obtain ⟨rfl, rfl⟩ := List.cons.inj h
        left
        rw [dangles_nil] at hu
        simp [hu, hx]
      | cons y u =>
        obtain ⟨rfl, rfl⟩ := List.cons.inj h
        exact .inr ⟨u, x, v, rfl, hx, hu⟩

theorem hasWildcards_iff {t : Text} :
    hasWildcards t = true ↔
      ∃ n, (charAt? n t).any isWildcard = true ∧ t.isEscaped n = false := by
  rw [hasWildcards, hasWildcardsFrom_iff]
  constructor
  · rintro ⟨u, c, v, rfl, hc, hu⟩
    refine ⟨byteLength u, ?_, ?_⟩
    · rw [charAt?_byteLength]
      exact hc
    · rw [isEscaped_byteLength]
      exact hu
  · rintro ⟨n, hany, hescaped⟩
    obtain ⟨c, hchar, hc⟩ := (Option.any_eq_true _ _).mp hany
    obtain ⟨u, v, rfl, rfl⟩ := exists_of_charAt? hchar
    rw [isEscaped_byteLength] at hescaped
    exact ⟨u, c, v, rfl, hc, hescaped⟩

/-- Without a wildcard that counts, a backslash stands right in front of each. -/
theorem exists_standsBefore {t : Text} (h : hasWildcards t = false) {n : Nat}
    (hn : (charAt? n t).any isWildcard = true) :
    ∃ m, n = m + 1 ∧ standsBefore isWildcard t m = true := by
  obtain ⟨c, hchar, hc⟩ := (Option.any_eq_true _ _).mp hn
  obtain ⟨u, v, rfl, rfl⟩ := exists_of_charAt? hchar
  have hdangles : dangles false u = true := by
    by_contra hu
    rw [Bool.not_eq_true] at hu
    have hcounts : hasWildcards (u ++ c :: v) = true :=
      hasWildcardsFrom_iff.mpr ⟨u, c, v, rfl, hc, hu⟩
    rw [h] at hcounts
    exact Bool.noConfusion hcounts
  obtain ⟨u', rfl⟩ := exists_of_dangles hdangles
  refine ⟨byteLength u', ?_, ?_⟩
  · rw [byteLength_concat]
    rfl
  · have hstands := standsBefore_byteLength isWildcard u' (c :: v) '\\'
    rw [List.append_assoc, List.singleton_append, hstands]
    simp [hc]

end Glob

/-! ## Scanners -/

namespace Scanner

/-- The scanner after some characters, each with its own say on whether quotes are tracked. -/
def follow (s : Scanner) (xs : List (Char × Bool)) : Scanner :=
  xs.foldl (fun s x => s.next x.1 x.2) s

/-- Tracking quotes here and there makes no difference to what is escaped either. -/
theorem follow_escaping (s : Scanner) (xs : List (Char × Bool)) :
    (s.follow xs).escaping = Text.dangles s.escaping (xs.map Prod.fst) := by
  induction xs generalizing s with
  | nil => rfl
  | cons x xs ih =>
    have hcons : s.follow (x :: xs) = (s.next x.1 x.2).follow xs := rfl
    rw [hcons, ih, next_escaping, List.map_cons, Text.dangles_cons]

/-- A scanner takes the escaped characters as escaped, unless an apostrophe closes its quotes. -/
theorem escapes_eq {t : Text} {flags : List Bool} {i : Nat} {tracked : Bool}
    (hi : i ≤ t.length) (hflag : flags[i]? = some tracked) (c : Char) :
    (start.follow ((t.zip flags).take i)).escapes c tracked =
      (t.isEscaped (Text.byteLength (t.take i)) &&
        !(start.follow ((t.zip flags).take i)).closesSingle c tracked) := by
  have hlt : i < flags.length := (List.getElem?_eq_some_iff.mp hflag).1
  have hchars : ((t.zip flags).take i).map Prod.fst = t.take i := by
    rw [List.zip, List.take_zipWith, ← List.zip, List.map_fst_zip]
    simp only [List.length_take]
    omega
  have hescaped := Text.isEscaped_byteLength (t.take i) (t.drop i)
  rw [List.take_append_drop] at hescaped
  rw [escapes, follow_escaping, hchars, hescaped]
  rfl

end Scanner

/-! ## The rule -/

open Text Glob in
/-- `isEscaped` is the rule that all readers of backslashes go by. A scanner takes the characters as
escaped that are, but for the apostrophe that closes the single quotes it tracks. `unescape` drops
the backslashes that escape, for delimiters and commas in a literal and for quotes in a body. A
wildcard counts when it is not escaped; where none counts, each has a backslash right in front of
it, and those are the ones that are dropped, by a walk for each wildcard one after another. -/
theorem readers_agree {d : Char} (hd : d ≠ '\\') (t : Text) :
    (∀ (flags : List Bool) (i : Nat) (c : Char) (tracked : Bool),
      t[i]? = some c → flags[i]? = some tracked →
        let s := Scanner.start.follow ((t.zip flags).take i)
        s.escapes c tracked =
          (t.isEscaped (byteLength (t.take i)) &&
            !(s.context = .single && c = '\'' && tracked))) ∧
    unescapeStructural d t = without (escapesAt (isStructural d) t) t ∧
    unescapeStructural d (unescapeStructural d t) = unescapeStructural d t ∧
    unquoteBody .plain t = without (escapesAt isQuote t) t ∧
    (hasWildcards t = true ↔
      ∃ n, (charAt? n t).any isWildcard = true ∧ t.isEscaped n = false) ∧
    dropWildcardEscapes t = wildcards.foldl (fun u w => dropBefore (fun c => c = w) u) t ∧
    (hasWildcards t = false →
      dropWildcardEscapes t = without (standsBefore isWildcard t) t ∧
        ∀ n, (charAt? n t).any isWildcard = true →
          ∃ m, n = m + 1 ∧ standsBefore isWildcard t m = true) := by
  have hback : isStructural d '\\' = false := by simp [isStructural, Ne.symm hd]
  refine ⟨?_, unescape_eq_without _ t, unescape_unescape hback t, unescape_eq_without _ t,
    hasWildcards_iff, dropWildcardEscapes_eq_foldl t, ?_⟩
  · intro flags i c tracked hchar hflag
    have hlt : i < t.length := (List.getElem?_eq_some_iff.mp hchar).1
    exact Scanner.escapes_eq (Nat.le_of_lt hlt) hflag c
  · intro hnone
    refine ⟨?_, ?_⟩
    · rw [dropWildcardEscapes_eq_dropBefore, dropBefore_eq_without]
    · intro n hn
      exact exists_standsBefore hnone hn

/-- A backslash in front of the apostrophe that closes, a run of three in front of a comma, and one
in front of a wildcard. -/
def escapedPlaces : Text := "'\\'\\\\\\,\\*".toList

open Text Glob in
theorem readers_agree_escapedPlaces :
    '@' ≠ '\\' ∧ escapedPlaces[2]? = some '\'' ∧ escapedPlaces.isEscaped 2 = true ∧
      (Scanner.start.follow ((escapedPlaces.zip (List.replicate 9 true)).take 2)).escapes '\'' true
        = false ∧
      without (escapesAt (isStructural '@') escapedPlaces) escapedPlaces =
        "'\\'\\\\,\\*".toList ∧
      hasWildcards escapedPlaces = false ∧
      without (standsBefore isWildcard escapedPlaces) escapedPlaces =
        "'\\'\\\\\\,*".toList := by
  have hd : '@' ≠ '\\' := by decide
  have hchar : escapedPlaces[2]? = some '\'' := rfl
  have hnone : hasWildcards escapedPlaces = false := by decide
  obtain ⟨hscanner, hstructural, -, -, -, -, hwildcards⟩ := readers_agree hd escapedPlaces
  refine ⟨hd, hchar, by decide, ?_, ?_, hnone, ?_⟩
  · rw [hscanner (List.replicate 9 true) 2 '\'' true hchar rfl]
    decide
  · rw [← hstructural]
    decide
  · rw [← (hwildcards hnone).1]
    decide

end Fanout
