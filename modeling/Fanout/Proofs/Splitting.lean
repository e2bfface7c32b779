import Fanout.Proofs.Offsets

/-!
# The one split at unescaped separators

A scanner goes on across the pieces of a text, but what makes them the pieces can be seen from each
alone: no separator in it is unescaped, and unless it is the last it does not end in an odd run of
backslashes. Behind an unescaped separator nothing is left of what the scanner has seen, so both
ways of looking come to the same, and a text parts in one way only.

* `Parted`: pieces that are looked at one by one.
* `stretches_iff_parted`: they are the stretches between unescaped separators.
* `splitUnescaped_parted`: the split is such a row of pieces, and it is the only one.
-/

namespace Fanout

namespace Text

/-- Pieces that can stand between separators: no piece has an unescaped separator in it, and only
the last may end in an odd run of backslashes. -/
structure Parted (sep : Char) (pieces : List Text) : Prop where
  closed : ∀ p ∈ pieces, unescapedOffsets sep p = []
  ends : ∀ p ∈ pieces.dropLast, trailingBackslashes p % 2 = 0

instance (sep : Char) (pieces : List Text) : Decidable (Parted sep pieces) :=
  decidable_of_iff ((∀ p ∈ pieces, unescapedOffsets sep p = []) ∧
    ∀ p ∈ pieces.dropLast, trailingBackslashes p % 2 = 0) ⟨fun h => ⟨h.1, h.2⟩, fun h => ⟨h.1, h.2⟩⟩

section Parted

variable {sep : Char} {p q : Text} {ps : List Text}

theorem parted_singleton : Parted sep [p] ↔ unescapedOffsets sep p = [] := by
  constructor
  · intro h
    exact h.closed p List.mem_cons_self
  · intro h
    refine ⟨?_, ?_⟩
    · intro x hx
      rw [List.mem_singleton.mp hx, h]
    · intro x hx
      exact absurd hx List.not_mem_nil

theorem parted_cons_cons : Parted sep (p :: q :: ps) ↔
    unescapedOffsets sep p = [] ∧ trailingBackslashes p % 2 = 0 ∧ Parted sep (q :: ps) := by
  constructor
  · rintro ⟨hclosed, hends⟩
    rw [List.forall_mem_cons] at hclosed
    rw [List.dropLast_cons_cons, List.forall_mem_cons] at hends
    exact ⟨hclosed.1, hends.1, hclosed.2, hends.2⟩
  · rintro ⟨hp, hend, hclosed, hends⟩
    refine ⟨?_, ?_⟩
    · rw [List.forall_mem_cons]
      exact ⟨hp, hclosed⟩
    · rw [List.dropLast_cons_cons, List.forall_mem_cons]
      exact ⟨hend, hends⟩

/-- A text without an unescaped separator is one stretch, and the other way round. -/
theorem lacks_iff_unescapedOffsets (hsep : sep ≠ '\\') :
    Lacks sep false p ↔ unescapedOffsets sep p = [] := by
  constructor
  · intro h
    have hoffsets := unescapedOffsets_join hsep (stretches_singleton.mpr h)
    rwa [join_singleton, edges_singleton] at hoffsets
  · intro h
    exact lacks_of_unescapedOffsets hsep h

/-- Looked at one by one, pieces are what a scanner finds that goes on across them. -/
theorem stretches_iff_parted (hsep : sep ≠ '\\') :
    Stretches sep false ps ↔ ps ≠ [] ∧ Parted sep ps := by
  induction ps with
  | nil => exact iff_of_false id fun h => h.1 rfl
  | cons p ps ih =>
    cases ps with
    | nil =>
      rw [stretches_singleton, lacks_iff_unescapedOffsets hsep, parted_singleton]
      exact (and_iff_right (List.cons_ne_nil p [])).symm
    | cons q qs =>
      rw [stretches_cons_cons, ih, lacks_iff_unescapedOffsets hsep, ← even_trailingBackslashes_iff,
        parted_cons_cons]
      simp

end Parted

/-- The split is a row of pieces that join to the text, one more than it has unescaped separators.
No other row of such pieces joins to it. -/
theorem splitUnescaped_parted {sep : Char} (hsep : sep ≠ '\\') (t : Text) :
    join [sep] (splitUnescaped sep t) = t ∧
      (splitUnescaped sep t).length = (unescapedOffsets sep t).length + 1 ∧
      Parted sep (splitUnescaped sep t) ∧
      ∀ ps, ps ≠ [] → Parted sep ps → splitUnescaped sep (join [sep] ps) = ps := by
  have hstretches := stretches_splitUnescaped hsep t
  refine ⟨join_splitUnescaped hsep t, (length_unescapedOffsets hsep t).symm,
    ((stretches_iff_parted hsep).mp hstretches).2, ?_⟩
  intro ps hne hps
  apply splitUnescaped_join hsep
  exact (stretches_iff_parted hsep).mpr ⟨hne, hps⟩

/-- An empty piece at either end, an even run of backslashes in front of a separator, and an odd one
inside a piece. -/
def runsAtSeparators : List Text := [[], "a\\\\".toList, "b\\,\\\\\\,".toList, []]

theorem splitUnescaped_runsAtSeparators :
    ',' ≠ '\\' ∧ runsAtSeparators ≠ [] ∧ Parted ',' runsAtSeparators ∧
      splitUnescaped ',' ",a\\\\,b\\,\\\\\\,,".toList = runsAtSeparators ∧
      (unescapedOffsets ',' ",a\\\\,b\\,\\\\\\,,".toList).length = 3 := by
  have hsep : ',' ≠ '\\' := by decide
  have hne : runsAtSeparators ≠ [] := by decide
  have hparted : Parted ',' runsAtSeparators := by decide
  have hjoin : join [','] runsAtSeparators = ",a\\\\,b\\,\\\\\\,,".toList := by decide
  obtain ⟨-, hlength, -, honly⟩ := splitUnescaped_parted hsep (join [','] runsAtSeparators)
  have hsplit := honly runsAtSeparators hne hparted
  rw [hsplit] at hlength
  rw [hjoin] at hsplit hlength
  refine ⟨hsep, hne, hparted, hsplit, ?_⟩
  have hfour : runsAtSeparators.length = 4 := rfl
  omega

end Text

end Fanout
