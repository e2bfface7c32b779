import Fanout.Proofs.Rendering
import Mathlib.Data.List.TakeWhile

/-!
# Stranded blanks

A command is its literals and slot texts in a row, but for the blanks that hidden slots strand at
its ends. Those in front are the blanks that the first visible piece begins with, when it is a
literal and a hidden slot stands before it; those behind are the blanks that the last visible piece
ends with, in the same way. A piece that is both gives its blanks to the front first.

* `Template.untrimmed`: the pieces in a row.
* `strandedStart`, `strandedEnd`: what is stranded in front and behind.
* `flatMap_text_eq`: pieces in a row are what is stranded in front, what the two walks leave, and
  what is stranded behind.
* `untrimmed_eq_render`: the same of a template, and what is stranded is made of blanks; when no
  slot is hidden, nothing is.
-/

namespace Fanout

namespace Piece

/-- The blanks that a literal begins with. -/
def blanksInFront : Piece → Text
  | .literal t => t.takeWhile Text.isBlank
  | .slot _ => []

/-- The blanks that a literal ends with. -/
def blanksBehind : Piece → Text
  | .literal t => (t.reverse.takeWhile Text.isBlank).reverse
  | .slot _ => []

theorem blanksInFront_append (p : Piece) :
    p.blanksInFront ++ (p.mapLiteral Text.trimStart).text = p.text := by
  cases p with
  | literal t => exact List.takeWhile_append_dropWhile
  | slot t => rfl

theorem append_blanksBehind (p : Piece) :
    (p.mapLiteral Text.trimEnd).text ++ p.blanksBehind = p.text := by
  cases p with
  | literal t =>
    have hreverse : t.reverse.takeWhile Text.isBlank ++ t.reverse.dropWhile Text.isBlank =
        t.reverse := List.takeWhile_append_dropWhile
    have htext := congrArg List.reverse hreverse
    rwa [List.reverse_append, List.reverse_reverse] at htext
  | slot t => exact List.append_nil _

theorem isBlank_of_mem_blanksInFront {p : Piece} {c : Char} (h : c ∈ p.blanksInFront) :
    Text.isBlank c = true := by
  cases p with
  | literal t => exact List.mem_takeWhile_imp h
  | slot t => exact absurd h (List.not_mem_nil)

theorem isBlank_of_mem_blanksBehind {p : Piece} {c : Char} (h : c ∈ p.blanksBehind) :
    Text.isBlank c = true := by
  cases p with
  | literal t => exact List.mem_takeWhile_imp (List.mem_reverse.mp h)
  | slot t => exact absurd h (List.not_mem_nil)

/-- What is trimmed from a piece. -/
theorem text_eq_trimmed (before behind : Bool) (p : Piece) :
    p.text = (if before then p.blanksInFront else []) ++ (p.trimmed before behind).text ++
      (if behind then (p.trimmed before false).blanksBehind else []) := by
  have hrest : (p.trimmed before behind).text ++
      (if behind then (p.trimmed before false).blanksBehind else []) =
        (p.trimmed before false).text := by
    cases behind with
    | true => exact append_blanksBehind _
    | false => exact List.append_nil _
  rw [List.append_assoc, hrest]
  cases before with
  | true => exact (blanksInFront_append p).symm
  | false => rfl

end Piece

/-! ## What is stranded -/

/-- What is stranded in front of the first visible piece, when it is behind a hidden slot: `blanks`
tells it from that piece and those behind it. -/
def stranded (blanks : Piece → List Piece → Text) (ps : List Piece) : Text :=
  match ps.dropWhile (!·.isVisible) with
  | p :: rest => if (ps.takeWhile (!·.isVisible)).any Piece.isHidden then blanks p rest else []
  | [] => []

/-- The blanks stranded in front of the pieces: those that the first visible piece begins with. -/
def strandedStart (ps : List Piece) : Text := stranded (fun p _ => p.blanksInFront) ps

/-- The blanks stranded behind the pieces: those that the last visible piece ends with. If no other
piece is visible, they are not counted again when they are stranded in front. -/
def strandedEnd (ps : List Piece) : Text :=
  stranded (fun p before => Piece.blanksBehind <|
    if before.any Piece.isVisible then p
    else p.mapLiteral (·.drop (strandedStart ps).length)) ps.reverse

theorem stranded_append {before : List Piece} {p : Piece}
    (hbefore : ∀ x ∈ before, x.isVisible = false) (hp : p.isVisible = true)
    (blanks : Piece → List Piece → Text) (rest : List Piece) :
    stranded blanks (before ++ p :: rest) =
      if before.any Piece.isHidden then blanks p rest else [] := by
  have hall : ∀ x ∈ before, (!x.isVisible) = true := by simpa using hbefore
  have hdrop : (before ++ p :: rest).dropWhile (!·.isVisible) = p :: rest := by
    rw [List.dropWhile_append_of_pos hall, List.dropWhile_cons_of_neg (by simp [hp])]
  have htake : (before ++ p :: rest).takeWhile (!·.isVisible) = before := by
    rw [List.takeWhile_append_of_pos hall, List.takeWhile_cons_of_neg (by simp [hp]),
      List.append_nil]
  rw [stranded, hdrop, htake]

theorem strandedEnd_append {behind : List Piece} {p : Piece}
    (hbehind : ∀ x ∈ behind, x.isVisible = false) (hp : p.isVisible = true) (front : List Piece) :
    strandedEnd (front ++ p :: behind) =
      if behind.any Piece.isHidden then
        Piece.blanksBehind <|
          if front.any Piece.isVisible then p
          else p.mapLiteral (·.drop (strandedStart (front ++ p :: behind)).length)
      else [] := by
  have hreverse : (front ++ p :: behind).reverse = behind.reverse ++ p :: front.reverse := by simp
  rw [strandedEnd, hreverse, stranded_append (by simpa using hbehind) hp, List.any_reverse,
    List.any_reverse]

/-- Where nothing is visible, nothing is stranded. -/
theorem stranded_of_not_isVisible {ps : List Piece} (h : ∀ p ∈ ps, p.isVisible = false)
    (blanks : Piece → List Piece → Text) : stranded blanks ps = [] := by
  have hdrop : ps.dropWhile (!·.isVisible) = [] := by simpa using h
  rw [stranded, hdrop]

/-- Only a hidden slot strands blanks. -/
theorem stranded_of_shown {ps : List Piece} (h : ∀ p ∈ ps, p.isHidden = false)
    (blanks : Piece → List Piece → Text) : stranded blanks ps = [] := by
  have hnone : (ps.takeWhile (!·.isVisible)).any Piece.isHidden = false := by
    rw [List.any_eq_false]
    intro p hp
    rw [h p ((List.takeWhile_sublist _).subset hp)]
    exact Bool.false_ne_true
  rw [stranded, hnone]
  split <;> rfl

/-- What is stranded is what `blanks` tells of some piece. -/
theorem mem_stranded {blanks : Piece → List Piece → Text} {ps : List Piece} {c : Char}
    (h : c ∈ stranded blanks ps) : ∃ p rest, c ∈ blanks p rest := by
  unfold stranded at h
  split at h
  · split_ifs at h
    · exact ⟨_, _, h⟩
    · exact absurd h List.not_mem_nil
  · exact absurd h List.not_mem_nil

theorem isBlank_of_mem_strandedStart {ps : List Piece} {c : Char} (h : c ∈ strandedStart ps) :
    Text.isBlank c = true := by
  obtain ⟨p, -, hp⟩ := mem_stranded h
  exact Piece.isBlank_of_mem_blanksInFront hp

theorem isBlank_of_mem_strandedEnd {ps : List Piece} {c : Char} (h : c ∈ strandedEnd ps) :
    Text.isBlank c = true := by
  obtain ⟨p, before, hp⟩ := mem_stranded h
  exact Piece.isBlank_of_mem_blanksBehind hp

/-! ## Pieces in a row -/

/-- What a single visible piece has left behind the blanks in front of it. -/
theorem Piece.mapLiteral_drop (stranded : Bool) (p : Piece) :
    p.mapLiteral (·.drop (if stranded then p.blanksInFront else []).length) =
      p.trimmed stranded false := by
  cases p with
  | slot t => cases stranded <;> rfl
  | literal t =>
    cases stranded with
    | false => rfl
    | true =>
      have hdrop : (t.takeWhile Text.isBlank ++ t.dropWhile Text.isBlank).drop
          (t.takeWhile Text.isBlank).length = t.dropWhile Text.isBlank := List.drop_left
      rw [List.takeWhile_append_dropWhile] at hdrop
      exact congrArg Piece.literal hdrop

/-- Pieces in a row, taken apart at their ends. -/
theorem flatMap_text_eq (ps : List Piece) :
    ps.flatMap Piece.text =
      strandedStart ps ++ (trimStranded ps).flatMap Piece.text ++ strandedEnd ps := by
  by_cases hnone : ∀ p ∈ ps, p.isVisible = false
  · rw [strandedStart, stranded_of_not_isVisible hnone, strandedEnd,
      stranded_of_not_isVisible (by simpa using hnone), trimStranded_of_not_isVisible hnone,
      List.append_nil, List.nil_append]
  obtain ⟨before, p, rest, rfl, hbefore, hp⟩ := exists_first hnone
  have hstart : strandedStart (before ++ p :: rest) =
      if before.any Piece.isHidden then p.blanksInFront else [] := stranded_append hbefore hp _ rest
  by_cases hrest : ∀ x ∈ rest, x.isVisible = false
  · -- one visible piece, with both ends of its own
    have hfront : before.any Piece.isVisible = false := by simpa using hbefore
    have hend := strandedEnd_append hrest hp before
    rw [hfront, hstart] at hend
    simp only [Bool.false_eq_true, if_false, Piece.mapLiteral_drop] at hend
    rw [hstart, hend, flatMap_text_alone hbefore hrest, text_trimStranded_one hbefore hrest hp]
    exact Piece.text_eq_trimmed _ _ p
  · -- two visible pieces, with one end each
    obtain ⟨mid, q, behind, rfl, hbehind, hq⟩ := exists_last hrest
    have hsplit : before ++ p :: (mid ++ q :: behind) = (before ++ p :: mid) ++ q :: behind := by
      simp
    have hfront : (before ++ p :: mid).any Piece.isVisible = true := by simp [hp]
    have hend := strandedEnd_append hbehind hq (before ++ p :: mid)
    rw [hfront, ← hsplit] at hend
    rw [hstart, hend, trimStranded_two hbefore hbehind hp hq]
    simp only [if_true, List.flatMap_append, List.flatMap_cons,
      flatMap_text_of_not_isVisible hbefore, flatMap_text_of_not_isVisible hbehind]
    rw [Piece.text_eq_trimmed (before.any Piece.isHidden) false p,
      Piece.text_eq_trimmed false (behind.any Piece.isHidden) q]
    simp [Piece.trimmed]

/-! ## Commands -/

namespace Template

/-- The literals of the template and the texts in its slots in a row. A hidden slot shows
nothing. -/
def untrimmed (t : Template) (slots : List (Option Text)) : Text :=
  (t.pieces slots).flatMap Piece.text

/-- A command is its pieces in a row without what hidden slots strand at its ends: the blanks that
the first visible piece begins with, and those that the last one ends with. -/
theorem untrimmed_eq_render (t : Template) (slots : List (Option Text)) :
    t.untrimmed slots =
        strandedStart (t.pieces slots) ++ t.render slots ++ strandedEnd (t.pieces slots) ∧
      (∀ c ∈ strandedStart (t.pieces slots), Text.isBlank c = true) ∧
      (∀ c ∈ strandedEnd (t.pieces slots), Text.isBlank c = true) ∧
      ((∀ p ∈ t.pieces slots, p.isHidden = false) → t.render slots = t.untrimmed slots) := by
  have hwhole := flatMap_text_eq (t.pieces slots)
  refine ⟨hwhole, fun c => isBlank_of_mem_strandedStart, fun c => isBlank_of_mem_strandedEnd, ?_⟩
  intro hshown
  rw [strandedStart, stranded_of_shown hshown, strandedEnd,
    stranded_of_shown (by simpa using hshown), List.append_nil, List.nil_append] at hwhole
  exact hwhole.symm

/-- Three slots, with blanks around the literals between them. -/
def threeSlots : Template where
  segments := [.slot 0, .literal " \u00a0a ".toList, .slot 1, .literal "\t".toList, .slot 2]

/-- Hidden slots strand the blanks at either end, but not those between the literals. When the slot
in the middle shows nothing either, the literal in front of it is still not at the end. -/
theorem untrimmed_threeSlots :
    (∀ p ∈ threeSlots.pieces [some ['x'], some ['y'], some []], p.isHidden = false) ∧
      threeSlots.render [some ['x'], some ['y'], some []] = "x \u00a0a y\t".toList ∧
      threeSlots.untrimmed [none, none, none] = " \u00a0a \t".toList ∧
      strandedStart (threeSlots.pieces [none, none, none]) = " \u00a0".toList ∧
      threeSlots.render [none, none, none] = "a ".toList ∧
      strandedEnd (threeSlots.pieces [none, none, none]) = "\t".toList := by
  have hshown : ∀ p ∈ threeSlots.pieces [some ['x'], some ['y'], some []], p.isHidden = false := by
    decide
  obtain ⟨-, -, -, hrender⟩ := untrimmed_eq_render threeSlots [some ['x'], some ['y'], some []]
  obtain ⟨hwhole, -⟩ := untrimmed_eq_render threeSlots [none, none, none]
  have hstart : strandedStart (threeSlots.pieces [none, none, none]) = " \u00a0".toList := by decide
  have hend : strandedEnd (threeSlots.pieces [none, none, none]) = "\t".toList := by decide
  have hmiddle : threeSlots.render [none, none, none] = "a ".toList := by decide
  refine ⟨hshown, ?_, ?_, hstart, hmiddle, hend⟩
  · rw [hrender hshown]
    decide
  · rw [hwhole, hstart, hmiddle, hend]
    decide

end Template

end Fanout
