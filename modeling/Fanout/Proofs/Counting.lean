import Fanout.Proofs.NestedLoop

/-!
# How many commands there are

A generator has as many commands as the sizes of its branching groups multiply to. Their number is
also given as a machine word, which is the largest one when the product does not fit. The odometer
multiplies nothing: it goes through all commands, and then stops, whatever word their number is.

* `wordProduct?_le`, `lt_of_wordProduct?_eq_none`: what a product of machine words says about the
  exact product, and what its failure says.
* `cappedSize_eq_min`: the word for the number of commands.
* `answer_start`, `length_ahead_start`: the calls of an odometer from its start on.
* `sizes_agree`: the word, the test for no commands, and the commands that come.
-/

namespace Fanout

namespace Generator

open Odometer

variable {g : Generator}

/-! ## Products of machine words -/

theorem wordProduct?_le {n m : Nat} {ws : List Nat} (hn : n ≤ Text.maxWord)
    (h : wordProduct? n ws = some m) : m ≤ Text.maxWord := by
  induction ws generalizing n with
  | nil =>
    obtain rfl : n = m := Option.some.inj h
    exact hn
  | cons w ws ih =>
    rw [wordProduct?] at h
    split at h
    · exact absurd h (by simp)
    · next hfits => exact ih (by omega) h

/-- Without a zero among the words that are left, a product that does not fit never comes back. -/
theorem lt_of_wordProduct?_eq_none {n : Nat} {ws : List Nat} (hpos : ∀ w ∈ ws, 0 < w)
    (h : wordProduct? n ws = none) : Text.maxWord < n * ws.prod := by
  induction ws generalizing n with
  | nil => exact absurd h (by simp [wordProduct?])
  | cons w ws ih =>
    obtain ⟨-, hrest⟩ := List.forall_mem_cons.mp hpos
    rw [wordProduct?] at h
    rw [List.prod_cons, ← Nat.mul_assoc]
    split at h
    · next hlarge =>
      have hone : 1 ≤ ws.prod := List.prod_pos_iff_forall_pos_nat.mpr hrest
      calc Text.maxWord < n * w := hlarge
        _ = n * w * 1 := (Nat.mul_one _).symm
        _ ≤ n * w * ws.prod := Nat.mul_le_mul_left _ hone
    · exact ih hrest h

/-! ## The word for the number of commands -/

theorem prod_branchSizes_eq_size (g : Generator) : g.branchSizes.prod = g.size := by
  rw [branchSizes, prod_branchSizes, size_eq_prod]

theorem branchSizes_pos (h : ¬ g.HasEmpty) : ∀ n ∈ g.branchSizes, 0 < n := by
  intro n hn
  obtain ⟨x, hx, rfl⟩ := List.mem_map.mp hn
  obtain ⟨hmem, hbranches⟩ := List.mem_filter.mp hx
  apply List.length_pos_iff.mpr
  intro hnil
  exact h ⟨x, hmem, hbranches, hnil⟩

/-- The word is the exact number as long as that fits, and the largest word from there on. -/
theorem cappedSize_eq_min (hs : g.SeesEmpty) :
    g.cappedSize = min Text.maxWord g.branchSizes.prod := by
  have hcapped : g.cappedSize = (wordProduct? 1 g.branchSizes).getD Text.maxWord := rfl
  rw [hcapped]
  cases hp : wordProduct? 1 g.branchSizes with
  | some m =>
    have hm : m = g.branchSizes.prod := by rw [wordProduct?_eq_some hp, Nat.one_mul]
    have hle : m ≤ Text.maxWord := wordProduct?_le (by decide) hp
    rw [Option.getD_some]
    omega
  | none =>
    have hne : ¬ g.HasEmpty := fun he => hs he hp
    have hlt := lt_of_wordProduct?_eq_none (branchSizes_pos hne) hp
    rw [Option.getD_none]
    omega

/-! ## Calls of the odometer -/

theorem length_collect (g : Generator) (n : Nat) (o : Odometer) :
    (collect g n o).length = count g n o := by
  induction n generalizing o with
  | zero => rfl
  | succ n ih =>
    rw [collect, count]
    split
    · rfl
    · rw [List.length_cons, ih]

section Start

variable (hc : checkBackrefs 0 g.groups = .ok ()) (hs : g.SeesEmpty)

include hc hs

/-- An odometer starts at its end, when a group has no term, or with all commands ahead. -/
theorem start_cases :
    (g.HasEmpty ∧ (start g).done = true) ∨
      (Fits g.groups (start g).wheels ∧ (start g).ahead g = g.nestedCommands) := by
  cases hempty : g.isEmpty with
  | true => exact .inl ⟨(isEmpty_iff hs).mp hempty, hempty⟩
  | false =>
    have he : ¬ g.HasEmpty := by
      rw [← isEmpty_iff hs, hempty]
      exact Bool.false_ne_true
    exact .inr (ahead_start hc he hempty)

/-- From the start on, the calls of an odometer give what is ahead, one by one. -/
theorem answer_start (n : Nat) : answer g n (start g) = ((start g).ahead g)[n]? := by
  obtain ⟨-, hdone⟩ | ⟨hfits, -⟩ := start_cases hc hs
  · rw [answer_of_done hdone, ahead_of_done hdone, List.getElem?_nil]
  · exact answer_eq_ahead hc hfits n

/-- As many commands are ahead of the start as the branching groups multiply to. -/
theorem length_ahead_start : ((start g).ahead g).length = g.branchSizes.prod := by
  rw [prod_branchSizes_eq_size]
  obtain ⟨hempty, hdone⟩ | ⟨-, hahead⟩ := start_cases hc hs
  · rw [ahead_of_done hdone, size_eq_zero.mpr hempty, List.length_nil]
  · rw [hahead, length_nestedCommands hc]

/-- Counting stops at the end, or where it is told to. -/
theorem count_start (n : Nat) : count g n (start g) = min n g.branchSizes.prod := by
  rw [← length_ahead_start hc hs, ← length_collect]
  obtain ⟨-, hdone⟩ | ⟨hfits, -⟩ := start_cases hc hs
  · cases n <;> simp [collect, ahead_of_done hdone, hdone]
  · rw [collect_eq_take hc hfits, List.length_take]

end Start

/-- The word for the number of commands is the product of the sizes of the groups that branch, as
long as that fits, and the largest word beyond; there are no commands when one of these groups has
no term; and the odometer gives as many commands as the product says, whether it fits or not. A back
reference adds no factor. -/
theorem sizes_agree {t : Template} {gs : List Group} (h : ofGroups t gs = .ok g)
    (hs : g.SeesEmpty) :
    g.cappedSize = min (2 ^ 64 - 1) g.branchSizes.prod ∧ (g.isEmpty = true ↔ g.HasEmpty) ∧
      (∀ n, answer g n (start g) = none ↔ g.branchSizes.prod ≤ n) ∧
      (∀ n, count g n (start g) = min n g.branchSizes.prod) := by
  obtain ⟨-, hc, hg⟩ := ofGroups_eq_ok.mp h
  have hc' : checkBackrefs 0 g.groups = .ok () := by rwa [hg]
  refine ⟨cappedSize_eq_min hs, isEmpty_iff hs, fun n => ?_, count_start hc' hs⟩
  rw [answer_start hc' hs, List.getElem?_eq_none_iff, length_ahead_start hc' hs]

/-- Sixty-five groups of two terms each, and a back reference among them. -/
def manyPairs : Generator where
  template := ⟨(List.range 66).map .slot⟩
  groups :=
    { terms := [⟨['a'], false⟩, ⟨['b'], false⟩] } ::
      { terms := [⟨['1'], false⟩], backref := some 1 } ::
      List.replicate 64 { terms := [⟨['a'], false⟩, ⟨['b'], false⟩] }

/-- Their commands are too many for a machine word, and go on behind the largest one. -/
theorem sizes_manyPairs :
    ofGroups manyPairs.template manyPairs.groups = .ok manyPairs ∧ manyPairs.SeesEmpty ∧
      manyPairs.cappedSize = 2 ^ 64 - 1 ∧
      answer manyPairs (2 ^ 65 - 1) (start manyPairs) ≠ none ∧
      answer manyPairs (2 ^ 65) (start manyPairs) = none := by
  have hg : ofGroups manyPairs.template manyPairs.groups = .ok manyPairs := rfl
  have hs : manyPairs.SeesEmpty := by decide
  have hprod : manyPairs.branchSizes.prod = 2 ^ 65 := by decide
  obtain ⟨hword, -, hcalls, -⟩ := sizes_agree hg hs
  refine ⟨hg, hs, ?_, ?_, ?_⟩
  · rw [hword, hprod]
    decide
  · rw [ne_eq, hcalls, hprod]
    decide
  · exact (hcalls _).mpr (Nat.le_of_eq hprod)

end Generator

end Fanout
