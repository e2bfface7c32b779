import Fanout.Proofs.Inheriting

/-!
# Searches for one path

In front of a search and in its pattern, an escaped wildcard is meant as the character it is. Behind
a path without wildcards that count, a pattern in which all are escaped is left with nothing to
search for: what is made of the two describes one path only.

The escapes of the path and those of the pattern are not read in the same way. In front of a wildcard
of the path one backslash goes away. In the pattern backslashes are read in pairs, and a bracket can
be escaped as well. Either way a character that patterns are written with ends up in brackets of its
own, so nothing that stands next to it can open or close a class.

* `writes_patternOf`: what a pattern spells in which everything is escaped.
* `slashBehind_escape`: escaping a path does not change whether a slash is put behind it.
* `searchPattern_spells`: the one path that is searched for.
-/

namespace Fanout

namespace Text

/-! ## Escapes that are kept -/

/-- A text lacks an unescaped character when each of them is escaped. -/
theorem lacks_of_isEscaped {d : Char} {u t : Text}
    (h : ∀ n, charAt? n (u ++ t) = some d → isEscaped (u ++ t) n = true) :
    Lacks d (dangles false u) t := by
  induction t generalizing u with
  | nil => exact True.intro
  | cons c t ih =>
    have hrest := ih (u := u ++ [c]) (by rwa [← List.append_cons])
    rw [dangles_append, dangles_cons, dangles_nil] at hrest
    refine ⟨fun hc => ?_, hrest⟩
    rw [← isEscaped_byteLength u (c :: t)]
    exact h _ (by rw [charAt?_byteLength, List.head?_cons, hc])

theorem lt_of_charAt? {n : Nat} {t : Text} {p : Char → Bool} (h : (charAt? n t).any p = true) :
    n < byteLength t := by
  obtain ⟨c, hc, -⟩ := (Option.any_eq_true _ _).mp h
  obtain ⟨u, v, rfl, rfl⟩ := exists_of_charAt? hc
  rw [byteLength_append, byteLength_cons]
  have hsize := c.utf8Size_pos
  omega

/-- Dropping backslashes keeps what follows the text escaped or not, since a character stays behind
each of them. -/
theorem dangles_dropBefore {p : Char → Bool} (hp : p '\\' = false) (e : Bool) (t : Text) :
    dangles e (dropBefore p t) = dangles e t := by
  induction t generalizing e with
  | nil => rfl
  | cons c t ih =>
    by_cases hc : c = '\\'
    · rw [hc, dropBefore_backslash]
      split_ifs with hany
      · -- the character behind the backslash is no backslash, so it ends the run
        obtain ⟨x, hx, hpx⟩ := (Option.any_eq_true _ _).mp hany
        obtain ⟨u, rfl⟩ := List.head?_eq_some_iff.mp hx
        have hback : x ≠ '\\' := by
          rintro rfl
          rw [hp] at hpx
          exact Bool.noConfusion hpx
        rw [ih, dangles_cons, dangles_cons, dangles_cons, escapesNext_of_ne hback,
          escapesNext_of_ne hback]
      · rw [dangles_cons, dangles_cons, ih]
    · rw [dropBefore_cons_of_ne hc, dangles_cons, dangles_cons, ih]

theorem getLast?_dropBefore (p : Char → Bool) (t : Text) :
    (dropBefore p t).getLast? = t.getLast? := by
  induction t with
  | nil => rfl
  | cons c t ih =>
    rw [dropBefore]
    split_ifs with hdrop
    · cases t with
      | nil => simp at hdrop
      | cons x t => rw [ih, List.getLast?_cons_cons]
    · rw [List.getLast?_cons, List.getLast?_cons, ih]

theorem dropBefore_concat {p : Char → Bool} {c : Char} (hc : p c = false) (t : Text) :
    dropBefore p (t ++ [c]) = dropBefore p t ++ [c] := by
  induction t with
  | nil => simp [dropBefore]
  | cons x t ih =>
    have hhead : (t ++ [c]).head?.any p = t.head?.any p := by
      cases t with
      | nil => simpa using hc
      | cons y t => rfl
    rw [List.cons_append, dropBefore, dropBefore, hhead, ih]
    split_ifs <;> rfl

end Text

namespace Glob

open Text

theorem dangles_escape (e : Bool) (t : Text) : dangles e (Pattern.escape t) = dangles e t := by
  induction t generalizing e with
  | nil => rfl
  | cons c t ih =>
    rw [Pattern.escape_cons, dangles_append, ih, dangles_cons, escapeChar]
    split_ifs with hc
    · have hback : c ≠ '\\' := by
        rintro rfl
        exact absurd hc (by decide)
      simp [escapesNext, hback]
    · rfl

/-! ## The path in front -/

/-- What is put between a path and the pattern behind it. -/
def slashBehind (ext : Text) : Text :=
  if ext.getLast? = some '/' ∧ ext.isEscaped (byteLength ext - 1) = false then [] else ['/']

theorem joinExternal_eq (ext pattern : Text) :
    joinExternal ext pattern = ext ++ slashBehind ext ++ pattern := by
  unfold joinExternal slashBehind
  by_cases hslash : ext.getLast? = some '/' ∧ ext.isEscaped (byteLength ext - 1) = false
  · simp [hslash]
  · rw [if_neg hslash, if_neg (by simpa using hslash)]
    simp

/-- A slash at the end counts unless the backslashes in front of it escape it. -/
theorem slashBehind_concat (u : Text) :
    slashBehind (u ++ ['/']) = if dangles false u then ['/'] else [] := by
  have hsize : '/'.utf8Size = 1 := by decide
  have hlast : byteLength (u ++ ['/']) - 1 = byteLength u := by
    rw [byteLength_concat, hsize, Nat.add_sub_cancel]
  rw [slashBehind, hlast, isEscaped_byteLength, List.getLast?_concat]
  cases dangles false u <;> simp

theorem slashBehind_of_ne {ext : Text} (h : ext.getLast? ≠ some '/') : slashBehind ext = ['/'] :=
  if_neg fun hslash => h hslash.1

/-- Escaping a path does not change what is put behind it. -/
theorem slashBehind_escape (ext : Text) :
    slashBehind (Pattern.escape (dropWildcardEscapes ext)) = slashBehind ext := by
  rw [dropWildcardEscapes_eq_dropBefore]
  rcases List.eq_nil_or_concat ext with rfl | ⟨u, c, rfl⟩
  · rfl
  · rw [List.concat_eq_append]
    by_cases hc : c = '/'
    · have hescape : Pattern.escape (dropBefore isWildcard (u ++ ['/'])) =
          Pattern.escape (dropBefore isWildcard u) ++ ['/'] := by
        rw [dropBefore_concat (by decide), Pattern.escape_append]
        rfl
      rw [hc, hescape, slashBehind_concat, slashBehind_concat, dangles_escape,
        dangles_dropBefore (by decide)]
    · have hext : (u ++ [c]).getLast? ≠ some '/' := by simpa using hc
      have hescape : (Pattern.escape (dropBefore isWildcard (u ++ [c]))).getLast? ≠ some '/' := by
        rwa [Ne, getLast?_escape, getLast?_dropBefore]
      rw [slashBehind_of_ne hext, slashBehind_of_ne hescape]

/-! ## The pattern behind -/

/-- The characters that patterns are written with. -/
def isSyntax (c : Char) : Bool := ['*', '?', '[', ']'].contains c

theorem writes_of_not_isSyntax {c : Char} (h : isSyntax c = false) : Writes [c] [c] := by
  refine writes_char fun hmem => ?_
  have hsyntax : isSyntax c = true := by
    simp only [List.mem_cons, List.not_mem_nil, or_false] at hmem
    rcases hmem with rfl | rfl | rfl <;> decide
  rw [h] at hsyntax
  exact Bool.noConfusion hsyntax

/-- What has a meaning in patterns has one in directives. -/
theorem isSyntax_of_not_isMeant {c : Char} (h : isMeant c = false) : isSyntax c = false := by
  by_contra hsyntax
  rw [Bool.not_eq_false] at hsyntax
  have hmem : c ∈ ['*', '?', '[', ']'] := List.contains_iff_mem.mp hsyntax
  simp only [List.mem_cons, List.not_mem_nil, or_false] at hmem
  rcases hmem with rfl | rfl | rfl | rfl <;> exact absurd h (by decide)

/-- A pattern in which everything is escaped spells what is left without the escapes. -/
theorem writes_patternOf {p : Text} (h : ∀ d, isSyntax d = true → Lacks d false p) :
    Writes (patternOf p) (unescape isMeant p) := by
  fun_induction patternOf p with
  | case1 c t ih =>
    -- the backslash and its character are a pair, so what is behind is not escaped by them
    have hrest : ∀ d, isSyntax d = true → Lacks d false t := fun d hd => (h d hd).2.2
    rw [unescape]
    split_ifs with hc
    · exact (writes_escapeChar c).append (ih hrest)
    · have hplain := isSyntax_of_not_isMeant (Bool.not_eq_true _ |>.mp hc)
      have hback := writes_of_not_isSyntax (show isSyntax '\\' = false by decide)
      exact (hback.append (writes_of_not_isSyntax hplain)).append (ih hrest)
  | case2 c t hnot ih =>
    rw [unescape.eq_2 _ _ _ hnot]
    have hc : isSyntax c = false := by
      by_contra hc
      exact Bool.noConfusion ((h c (Bool.not_eq_false _ |>.mp hc)).1 rfl)
    refine (writes_of_not_isSyntax hc).append (ih fun d hd => ?_)
    rcases plain_or_last hnot with hback | ⟨rfl, rfl⟩
    · have hlacks := (h d hd).2
      rwa [escapesNext_of_ne hback] at hlacks
    · exact True.intro
  | case3 => exact writes_nil

/-! ## The search -/

theorem writes_searchPattern {ext p : Text} (hext : hasWildcards ext = false)
    (hp : ∀ d, isSyntax d = true → Lacks d false p) :
    Writes (searchPattern (some ext) p)
      (dropWildcardEscapes ext ++ slashBehind ext ++ unescape isMeant p) := by
  have hslash : Writes (slashBehind ext) (slashBehind ext) := by
    refine writes_plain fun c hc => ?_
    unfold slashBehind at hc
    split_ifs at hc
    · exact absurd hc List.not_mem_nil
    · obtain rfl := List.mem_singleton.mp hc
      decide
  rw [searchPattern, hext, if_neg (by decide), joinExternal_eq, slashBehind_escape]
  exact ((writes_escape _).append hslash).append (writes_patternOf hp)

end Glob

open Text Glob in
/-- Where every wildcard of the path is escaped, and every wildcard and bracket of the pattern, what
is searched for is one path: that in front without the backslashes right in front of its wildcards, a
slash unless it ends in one that counts, and the pattern without the backslashes that escape what has
a meaning. -/
theorem searchPattern_spells {ext p : Text}
    (hext : ∀ n, (charAt? n ext).any isWildcard = true → ext.isEscaped n = true)
    (hp : ∀ n, (charAt? n p).any isSyntax = true → p.isEscaped n = true) :
    ∃ pattern, Pattern.ofText (searchPattern (some ext) p) = .ok pattern ∧
      ∀ x, pattern.matches x = true ↔
        x = without (standsBefore isWildcard ext) ext ++
          (if ext.getLast? = some '/' ∧ ext.isEscaped (byteLength ext - 1) = false then []
            else ['/']) ++
          without (escapesAt isMeant p) p := by
  have hnone : hasWildcards ext = false := by
    rw [← Bool.not_eq_true, hasWildcards_iff]
    rintro ⟨n, hn, hescaped⟩
    exact Bool.noConfusion (hescaped.symm.trans (hext n hn))
  have hlacks (d : Char) (hd : isSyntax d = true) : Lacks d false p := by
    refine lacks_of_isEscaped (u := []) fun n hn => hp n ?_
    rw [← List.nil_append p, hn]
    exact hd
  obtain ⟨pattern, hpattern, hspells⟩ := (writes_searchPattern hnone hlacks).exists_spells
  refine ⟨pattern, hpattern, fun x => ?_⟩
  rw [hspells.matches_iff, dropWildcardEscapes_eq_dropBefore, dropBefore_eq_without,
    unescape_eq_without]
  rfl

/-- A directory whose name has a wildcard and a backslash at its end, and in it a name with brackets
that would make a class and a backslash that escapes nothing. -/
def bracketed : Text × Text := ("a\\*\\/".toList, "\\[!x\\]\\y".toList)

open Text Glob in
theorem searchPattern_spells_bracketed :
    (∀ n, (charAt? n bracketed.1).any isWildcard = true → bracketed.1.isEscaped n = true) ∧
    (∀ n, (charAt? n bracketed.2).any isSyntax = true → bracketed.2.isEscaped n = true) ∧
    ∃ pattern, Pattern.ofText (searchPattern (some bracketed.1) bracketed.2) = .ok pattern ∧
      ∀ x, pattern.matches x = true ↔ x = "a*\\//[!x]\\y".toList := by
  have hext (n : Nat) (hn : (charAt? n bracketed.1).any isWildcard = true) :
      bracketed.1.isEscaped n = true := by
    have hlt : n < 5 := lt_of_charAt? hn
    exact (by decide : ∀ n < 5, (charAt? n bracketed.1).any isWildcard = true →
      bracketed.1.isEscaped n = true) n hlt hn
  have hpattern (n : Nat) (hn : (charAt? n bracketed.2).any isSyntax = true) :
      bracketed.2.isEscaped n = true := by
    have hlt : n < 8 := lt_of_charAt? hn
    exact (by decide : ∀ n < 8, (charAt? n bracketed.2).any isSyntax = true →
      bracketed.2.isEscaped n = true) n hlt hn
  obtain ⟨pattern, hread, hmatches⟩ := searchPattern_spells hext hpattern
  have hone : without (standsBefore isWildcard bracketed.1) bracketed.1 ++
      (if bracketed.1.getLast? = some '/' ∧
          bracketed.1.isEscaped (byteLength bracketed.1 - 1) = false then []
        else ['/']) ++
      without (escapesAt isMeant bracketed.2) bracketed.2 = "a*\\//[!x]\\y".toList := by decide
  rw [hone] at hmatches
  exact ⟨hext, hpattern, pattern, hread, hmatches⟩

end Fanout
