import Fanout.Glob.Pattern
import Mathlib.Data.List.Forall2

/-!
# Patterns that spell a text

A pattern spells a text when each of its tokens describes one character of the text and no other.
Such a pattern matches the text and nothing else. Characters without a meaning are read as such
tokens, and so is what escaping makes of the others, each on its own: no class begins in one and ends
in another.

* `Pattern.Spells`: the relation; `Spells.matches_iff`: what such a pattern matches.
* `Writes`: a stretch of a pattern that spells a text, whatever stands around it; stretches are put
  together by `Writes.append`.
* `exists_spells_escape`, `exists_spells_plain`: what the escaping of a text is read as, and a text
  without wildcards.
-/

namespace Fanout

namespace Glob

/-- The token describes the one character and no other. -/
def Token.Spells (c : Char) (k : Token) : Prop := k = .char c ∨ k = .within [.one c]

/-- Each token describes one character of the text. -/
def Pattern.Spells (t : Text) (p : Pattern) : Prop := List.Forall₂ Token.Spells t p.tokens

theorem Token.Spells.accepts {c : Char} {k : Token} (h : k.Spells c) (x : Char) :
    k.accepts x = decide (x = c) := by
  rcases h with rfl | rfl
  · rfl
  · simp [Token.accepts, CharSpec.covers]

theorem matchTokens_of_spells {t : Text} {ks : List Token} (h : List.Forall₂ Token.Spells t ks)
    (x : Text) : matchTokens ks x = .matched ↔ x = t := by
  induction h generalizing x with
  | nil => cases x <;> simp [matchTokens]
  | @cons c k t ks hk _ ih =>
    have haccepts := hk.accepts
    cases x with
    | nil => rcases hk with rfl | rfl <;> simp [matchTokens]
    | cons d x =>
      have hstep : matchTokens (k :: ks) (d :: x) =
          if k.accepts d then matchTokens ks x else .mismatched := by
        rcases hk with rfl | rfl <;> rfl
      rw [hstep, haccepts]
      by_cases hd : d = c
      · simp [hd, ih]
      · simp [hd]

namespace Pattern.Spells

variable {t : Text} {p : Pattern} (h : p.Spells t)

include h

/-- The pattern matches the text and no other. -/
theorem matches_iff (x : Text) : p.matches x = true ↔ x = t := by
  rw [Pattern.matches, decide_eq_true_eq]
  exact matchTokens_of_spells h x

theorem isRecursive : p.isRecursive = false := by
  have hnone {t : Text} {ks : List Token} (h : List.Forall₂ Token.Spells t ks) :
      .anyRecursive ∉ ks := by
    induction h with
    | nil => exact List.not_mem_nil
    | cons hk _ ih => rcases hk with rfl | rfl <;> simpa using ih
  simpa [Pattern.isRecursive] using hnone h

end Pattern.Spells

/-- A pattern without wildcards spells its text. -/
theorem spells_of_literal {p : Pattern} {t : Text} (h : p.literal? = some t) : p.Spells t := by
  obtain ⟨ks⟩ := p
  unfold Pattern.literal? at h
  unfold Pattern.Spells
  simp only at h ⊢
  induction ks generalizing t with
  | nil =>
    obtain rfl : [] = t := by simpa using h
    exact .nil
  | cons k ks ih =>
    rw [List.mapM_cons] at h
    obtain ⟨c, hc, h⟩ := Option.bind_eq_some_iff.mp h
    obtain ⟨u, hu, h⟩ := Option.bind_eq_some_iff.mp h
    obtain rfl := Option.some.inj h
    refine .cons (.inl ?_) (ih hu)
    split at hc
    · rw [Option.some.inj hc]
    · exact absurd hc (by simp)

/-! ## Reading -/

/-- A character without a meaning is read as a token of its own. -/
theorem readTokens_char {c : Char} (h : c ∉ ['?', '*', '[']) (pos : Nat) (prev : Option Char)
    (t : Text) :
    readTokens pos prev (c :: t) = (readTokens (pos + 1) (some c) t).map (.char c :: ·) := by
  simp only [List.mem_cons, List.not_mem_nil, or_false, not_or] at h
  obtain ⟨hquestion, hasterisk, hbracket⟩ := h
  exact readTokens.eq_8 pos prev c t hquestion (fun _ h _ => hasterisk h) (fun _ h _ => hasterisk h)
    hasterisk hbracket

/-- A class of one is read as its character. -/
theorem readTokens_class {c : Char} (h : c ≠ '!') (pos : Nat) (prev : Option Char) (t : Text) :
    readTokens pos prev ('[' :: c :: ']' :: t) =
      (readTokens (pos + 3) (some ']') t).map (.within [.one c] :: ·) := by
  have hread : readClass? (c :: ']' :: t) = some (.within [.one c], t) := by
    simp [readClass?, h, charSpecs]
  have hpos : pos + 1 + ((c :: ']' :: t).length - t.length) = pos + 3 := by
    simp only [List.length_cons]
    omega
  rw [readTokens.eq_7]
  split
  · next k rest hk =>
    obtain ⟨rfl, rfl⟩ := Prod.mk.inj (Option.some.inj (hread.symm.trans hk))
    rw [hpos]
  · next hk => exact absurd (hread.symm.trans hk) (by simp)

/-- Wherever the first text stands in a pattern, it is read as tokens that spell the second. -/
def Writes (u t : Text) : Prop :=
  ∀ (pos : Nat) (prev : Option Char) (rest : Text), ∃ pos' prev' ks,
    readTokens pos prev (u ++ rest) = (readTokens pos' prev' rest).map (ks ++ ·) ∧
      List.Forall₂ Token.Spells t ks

theorem writes_nil : Writes [] [] := fun pos prev rest => by
  refine ⟨pos, prev, [], ?_, .nil⟩
  cases h : readTokens pos prev rest <;> simp [h, Except.map]

theorem Writes.append {u v t s : Text} (hu : Writes u t) (hv : Writes v s) :
    Writes (u ++ v) (t ++ s) := fun pos prev rest => by
  obtain ⟨pos₁, prev₁, ks, hks, ht⟩ := hu pos prev (v ++ rest)
  obtain ⟨pos₂, prev₂, ls, hls, hs⟩ := hv pos₁ prev₁ rest
  refine ⟨pos₂, prev₂, ks ++ ls, ?_, List.rel_append ht hs⟩
  rw [List.append_assoc, hks, hls]
  cases readTokens pos₂ prev₂ rest <;> simp [Except.map]

theorem writes_char {c : Char} (h : c ∉ ['?', '*', '[']) : Writes [c] [c] := fun pos prev rest =>
  ⟨pos + 1, some c, [.char c], readTokens_char h pos prev rest, .cons (.inl rfl) .nil⟩

theorem writes_class {c : Char} (h : c ≠ '!') : Writes ['[', c, ']'] [c] := fun pos prev rest =>
  ⟨pos + 3, some ']', [.within [.one c]], readTokens_class h pos prev rest, .cons (.inr rfl) .nil⟩

/-- What escaping makes of a character spells it. -/
theorem writes_escapeChar (c : Char) : Writes (escapeChar c) [c] := by
  unfold escapeChar
  split_ifs with hc
  · refine writes_class ?_
    rintro rfl
    exact absurd hc (by decide)
  · refine writes_char ?_
    simp only [Bool.or_eq_true, decide_eq_true_eq, not_or] at hc
    simp [hc]

theorem Pattern.escape_cons (c : Char) (t : Text) :
    Pattern.escape (c :: t) = escapeChar c ++ Pattern.escape t := List.flatMap_cons

/-- What escaping makes of a text spells it. -/
theorem writes_escape (t : Text) : Writes (Pattern.escape t) t := by
  induction t with
  | nil => exact writes_nil
  | cons c t ih =>
    rw [Pattern.escape_cons]
    exact (writes_escapeChar c).append ih

/-- A text without wildcards and brackets spells itself. -/
theorem writes_plain {t : Text} (h : ∀ c ∈ t, c ∉ ['?', '*', '[']) : Writes t t := by
  induction t with
  | nil => exact writes_nil
  | cons c t ih =>
    obtain ⟨hc, ht⟩ := List.forall_mem_cons.mp h
    exact (writes_char hc).append (ih ht)

theorem Writes.exists_spells {u t : Text} (h : Writes u t) :
    ∃ p, Pattern.ofText u = .ok p ∧ p.Spells t := by
  obtain ⟨pos, prev, ks, hks, hspells⟩ := h 0 none []
  rw [List.append_nil, readTokens.eq_1] at hks
  refine ⟨⟨ks⟩, ?_, hspells⟩
  rw [Pattern.ofText, hks]
  simp [Except.map]

theorem Pattern.exists_spells_escape (t : Text) :
    ∃ p, Pattern.ofText (Pattern.escape t) = .ok p ∧ p.Spells t := (writes_escape t).exists_spells

theorem Pattern.exists_spells_plain {t : Text} (h : ∀ c ∈ t, c ∉ ['?', '*', '[']) :
    ∃ p, Pattern.ofText t = .ok p ∧ p.Spells t := (writes_plain h).exists_spells

end Glob

end Fanout
