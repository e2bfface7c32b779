import Mathlib.Data.Char
import Mathlib.Data.List.Lex
import Mathlib.Data.Prod.Lex
import Fanout.Path.Component

/-!
# The order of paths

Two paths are compared at the first step in which they differ, by the sort of that step and then, of
two names, by their characters. That is the order of rows of keys, so it is one order of all paths,
and sorting by it keeps what it does not tell apart in the order in which it was found. Then the
sorted matches of one kind are the sorted matches, without those of the other kinds.

* `le_iff`: the order of paths is that of their keys.
* `le_of_le_of_le`, `le_or_le`: so it is an order.
* `filter_mergeSort`: selecting and sorting may be done either way round.
-/

namespace Fanout

namespace Path

/-! ## Keys -/

theorem nil_le {α : Type} [LinearOrder α] (as : List α) : [] ≤ as := not_lt.mp (List.not_lt_nil as)

/-- Rows are compared at the first difference. -/
theorem cons_le_cons_iff {α : Type} [LinearOrder α] {a b : α} {as bs : List α} :
    a :: as ≤ b :: bs ↔ a < b ∨ a = b ∧ as ≤ bs := by
  rw [le_iff_lt_or_eq, le_iff_lt_or_eq, List.cons_lt_cons_iff, List.cons.injEq]
  tauto

theorem textLe_iff (s t : Text) : textLe s t = true ↔ s ≤ t := by
  induction s generalizing t with
  | nil => simp [textLe, nil_le]
  | cons c s ih =>
    cases t with
    | nil => simp [textLe]
    | cons d t =>
      rw [cons_le_cons_iff, ← ih t, textLe, Bool.or_eq_true, Bool.and_eq_true, decide_eq_true_eq,
        decide_eq_true_eq]
      rfl

namespace Component

/-- What a step is sorted by: its sort, then the characters of its name. -/
def key : Component → ℕ ×ₗ Text
  | .name n => toLex (rank (.name n), n)
  | a => toLex (rank a, [])

theorem key_injective : Function.Injective key := by
  intro a b h
  cases a <;> cases b <;> simp_all [key, rank]

end Component

theorem componentLe_iff (a b : Component) : componentLe a b = true ↔ a.key ≤ b.key := by
  cases a <;> cases b <;>
    simp [componentLe, Component.key, Component.rank, Prod.Lex.toLex_le_toLex, textLe_iff]

theorem componentsLe_iff (as bs : List Component) :
    componentsLe as bs = true ↔ as.map Component.key ≤ bs.map Component.key := by
  induction as generalizing bs with
  | nil => simp [componentsLe, nil_le]
  | cons a as ih =>
    cases bs with
    | nil => simp [componentsLe]
    | cons b bs =>
      rw [List.map_cons, List.map_cons, cons_le_cons_iff, componentsLe]
      split_ifs with hab
      · rw [ih bs, hab]
        simp
      · have hkey : a.key ≠ b.key := Component.key_injective.ne hab
        rw [componentLe_iff, hkey.le_iff_lt]
        simp [hkey]

/-- The row of keys of a path. -/
def key (p : Text) : List (ℕ ×ₗ Text) := (components p).map Component.key

theorem le_iff (p q : Text) : le p q = true ↔ key p ≤ key q := componentsLe_iff _ _

theorem le_of_le_of_le (p q r : Text) (hpq : le p q = true) (hqr : le q r = true) :
    le p r = true := by
  rw [le_iff] at *
  exact hpq.trans hqr

theorem le_or_le (p q : Text) : (le p q || le q p) = true := by
  rw [Bool.or_eq_true, le_iff, le_iff]
  exact le_total (key p) (key q)

end Path

/-! ## Sorting -/

section Sorting

variable {α : Type} {le : α → α → Bool}
  (htrans : ∀ a b c, le a b = true → le b c = true → le a c = true)
  (htotal : ∀ a b, (le a b || le b a) = true)

include htrans htotal

/-- One more element goes behind those that are smaller, and before the rest. -/
theorem mergeSort_cons_eq (a : α) (xs : List α) : (a :: xs).mergeSort le =
    (xs.mergeSort le).filter (fun b => !le a b) ++ a :: (xs.mergeSort le).filter (le a) := by
  obtain ⟨smaller, rest, hcons, hxs, hsmaller⟩ := List.mergeSort_cons htrans htotal a xs
  have hsorted : (smaller ++ a :: rest).Pairwise (le · ·) :=
    hcons ▸ List.pairwise_mergeSort htrans htotal (a :: xs)
  have hrest : ∀ b ∈ rest, le a b = true :=
    (List.pairwise_cons.mp (List.pairwise_append.mp hsorted).2.1).1
  have hfront : smaller.filter (le a) = [] :=
    List.filter_eq_nil_iff.mpr fun b hb => by simpa using hsmaller b hb
  have hback : rest.filter (fun b => !le a b) = [] :=
    List.filter_eq_nil_iff.mpr fun b hb => by simpa using hrest b hb
  rw [hcons, hxs, List.filter_append, List.filter_append, hfront, hback, List.append_nil,
    List.nil_append, List.filter_eq_self.mpr hsmaller, List.filter_eq_self.mpr hrest]

/-- Sorting what is selected selects from what is sorted. -/
theorem filter_mergeSort (p : α → Bool) (xs : List α) :
    (xs.filter p).mergeSort le = (xs.mergeSort le).filter p := by
  induction xs with
  | nil => simp
  | cons a xs ih =>
    rw [mergeSort_cons_eq htrans htotal a xs]
    by_cases ha : p a = true
    · rw [List.filter_cons_of_pos ha, mergeSort_cons_eq htrans htotal, ih, List.filter_append,
        List.filter_cons_of_pos ha, List.filter_comm, List.filter_comm p (le a)]
    · rw [List.filter_cons_of_neg ha, ih]
      obtain ⟨smaller, rest, hcons, hxs, -⟩ := List.mergeSort_cons htrans htotal a xs
      rw [← mergeSort_cons_eq htrans htotal a xs, hcons, hxs, List.filter_append, List.filter_append,
        List.filter_cons_of_neg ha]

end Sorting

end Fanout
