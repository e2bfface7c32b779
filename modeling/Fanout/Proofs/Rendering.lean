import Fanout.Product.Render
import Mathlib.Data.List.Basic

/-!
# The ends of a command

Rendering goes over the pieces twice, from either end, and trims the first visible one it meets. The
same is said by number: the pieces in front of the first visible one and behind the last one tell
whether blanks are stranded there, and no other piece changes.

* `trimFirst_append`: a walk stops at the first visible piece.
* `text_trimStranded_one`, `trimStranded_two`: what the two walks leave of pieces of which one is
  visible, or more.
* `trimEnds?`: trimming by number, where each range that is looked at has to lie within the pieces.
* `trimEnds?_eq`: it shows what `trimStranded` shows.
-/

namespace Fanout

namespace Text

theorem trimEnd_cons (c : Char) (t : Text) :
    trimEnd (c :: t) = if (trimEnd t).isEmpty && isBlank c then [] else c :: trimEnd t := by
  unfold trimEnd
  rw [List.reverse_cons, List.dropWhile_append, List.isEmpty_reverse]
  by_cases hempty : (t.reverse.dropWhile isBlank).isEmpty = true
  · by_cases hc : isBlank c = true <;> simp_all
  · simp [hempty]

/-- The two ends are trimmed independently. -/
theorem trimStart_trimEnd (t : Text) : trimStart (trimEnd t) = trimEnd (trimStart t) := by
  induction t with
  | nil => rfl
  | cons c t ih =>
    have hcons (u : Text) : trimStart (c :: u) = if isBlank c then trimStart u else c :: u := by
      unfold trimStart
      rw [List.dropWhile_cons]
    rw [trimEnd_cons, hcons]
    by_cases hc : isBlank c = true
    · by_cases hempty : trimEnd t = []
      · rw [hempty] at ih
        simp [hc, hempty, ← ih]
      · simp [hc, hempty, hcons, ih]
    · simp [hc, hcons, trimEnd_cons]

end Text

/-! ## Visible pieces -/

theorem Piece.text_of_not_isVisible {p : Piece} (h : p.isVisible = false) : p.text = [] := by
  simpa [Piece.isVisible] using h

theorem flatMap_text_of_not_isVisible {ps : List Piece} (h : ∀ p ∈ ps, p.isVisible = false) :
    ps.flatMap Piece.text = [] := by
  rw [List.flatMap_eq_nil_iff]
  intro p hp
  exact Piece.text_of_not_isVisible (h p hp)

theorem exists_first {ps : List Piece} (h : ¬∀ p ∈ ps, p.isVisible = false) :
    ∃ before p rest, ps = before ++ p :: rest ∧ (∀ x ∈ before, x.isVisible = false) ∧
      p.isVisible = true := by
  induction ps with
  | nil => exact absurd (by simp) h
  | cons p ps ih =>
    by_cases hp : p.isVisible = true
    · exact ⟨[], p, ps, rfl, by simp, hp⟩
    · have hrest : ¬∀ x ∈ ps, x.isVisible = false := by
        intro hall
        apply h
        simpa [hp] using hall
      obtain ⟨before, q, rest, rfl, hbefore, hq⟩ := ih hrest
      refine ⟨p :: before, q, rest, rfl, ?_, hq⟩
      simpa [hp] using hbefore

/-- The last visible piece, found from the other end. -/
theorem exists_last {ps : List Piece} (h : ¬∀ p ∈ ps, p.isVisible = false) :
    ∃ front p behind, ps = front ++ p :: behind ∧ (∀ x ∈ behind, x.isVisible = false) ∧
      p.isVisible = true := by
  obtain ⟨before, p, rest, hps, hbefore, hp⟩ := @exists_first ps.reverse (by simpa using h)
  refine ⟨rest.reverse, p, before.reverse, ?_, ?_, hp⟩
  · rw [← List.reverse_reverse ps, hps]
    simp
  · simpa using hbefore

/-! ## Walks -/

/-- A walk over pieces that show nothing changes none. -/
theorem trimFirst_of_not_isVisible (trim : Text → Text) (hidden : Bool) {ps : List Piece}
    (h : ∀ p ∈ ps, p.isVisible = false) : trimFirst trim hidden ps = ps := by
  induction ps generalizing hidden with
  | nil => rfl
  | cons p ps ih =>
    obtain ⟨hp, hps⟩ := List.forall_mem_cons.mp h
    rw [trimFirst, hp, ih _ hps]
    rfl

/-- A walk stops at the first visible piece. -/
theorem trimFirst_append (trim : Text → Text) (hidden : Bool) {before : List Piece} {p : Piece}
    (hbefore : ∀ x ∈ before, x.isVisible = false) (hp : p.isVisible = true) (rest : List Piece) :
    trimFirst trim hidden (before ++ p :: rest) =
      before ++ (if hidden || before.any Piece.isHidden then p.mapLiteral trim else p) :: rest := by
  induction before generalizing hidden with
  | nil => simp [trimFirst, hp]
  | cons x before ih =>
    obtain ⟨hx, hbefore⟩ := List.forall_mem_cons.mp hbefore
    rw [List.cons_append, trimFirst, hx, ih _ hbefore]
    simp [Bool.or_assoc]

theorem trimLast_append {behind : List Piece} {p : Piece}
    (hbehind : ∀ x ∈ behind, x.isVisible = false) (hp : p.isVisible = true) (front : List Piece) :
    trimLast (front ++ p :: behind) =
      front ++ (if behind.any Piece.isHidden then p.mapLiteral Text.trimEnd else p) :: behind := by
  have hreverse : (front ++ p :: behind).reverse = behind.reverse ++ p :: front.reverse := by simp
  rw [trimLast, hreverse, trimFirst_append _ _ (by simpa using hbehind) hp]
  simp

/-! ## Both walks -/

/-- The piece without the blanks that are stranded in front of it or behind it. -/
def Piece.trimmed (before behind : Bool) (p : Piece) : Piece :=
  let p := if before then p.mapLiteral Text.trimStart else p
  if behind then p.mapLiteral Text.trimEnd else p

/-- The two ends of a piece are trimmed in either order. -/
theorem Piece.trimmed_eq (before behind : Bool) (p : Piece) :
    p.trimmed before behind =
      let p' := if behind then p.mapLiteral Text.trimEnd else p
      if before then p'.mapLiteral Text.trimStart else p' := by
  cases before <;> cases behind <;> cases p <;>
    simp [Piece.trimmed, Piece.mapLiteral, Text.trimStart_trimEnd]

/-- Where nothing is visible, there is nothing to trim. -/
theorem trimStranded_of_not_isVisible {ps : List Piece} (h : ∀ p ∈ ps, p.isVisible = false) :
    trimStranded ps = ps := by
  have hlast : trimLast ps = ps := by
    rw [trimLast, trimFirst_of_not_isVisible _ _ (by simpa using h), List.reverse_reverse]
  rw [trimStranded, hlast, trimFirst_of_not_isVisible _ _ h]

/-- What shows nothing shows nothing when it is trimmed. -/
theorem Piece.text_mapLiteral_of_not_isVisible {trim : Text → Text} (htrim : trim [] = [])
    {p : Piece} (h : p.isVisible = false) : (p.mapLiteral trim).text = [] := by
  have hempty := text_of_not_isVisible h
  cases p with
  | literal t =>
    obtain rfl : t = [] := hempty
    exact htrim
  | slot t => exact hempty

section Ends

variable {before behind : List Piece} {p : Piece} (hbefore : ∀ x ∈ before, x.isVisible = false)
  (hbehind : ∀ x ∈ behind, x.isVisible = false)

include hbefore hbehind

theorem flatMap_text_alone (p : Piece) :
    (before ++ p :: behind).flatMap Piece.text = p.text := by
  rw [List.flatMap_append, List.flatMap_cons, flatMap_text_of_not_isVisible hbefore,
    flatMap_text_of_not_isVisible hbehind, List.append_nil, List.nil_append]

/-- The only visible piece is trimmed at both ends. -/
theorem text_trimStranded_one (hp : p.isVisible = true) :
    (trimStranded (before ++ p :: behind)).flatMap Piece.text =
      (p.trimmed (before.any Piece.isHidden) (behind.any Piece.isHidden)).text := by
  rw [trimStranded, trimLast_append hbehind hp, Piece.trimmed_eq]
  generalize (if behind.any Piece.isHidden = true then p.mapLiteral Text.trimEnd else p) = p'
  by_cases hvisible : p'.isVisible = true
  · rw [trimFirst_append _ _ hbefore hvisible, Bool.false_or, flatMap_text_alone hbefore hbehind]
  · -- the piece was a literal of blanks, and trimming it once more leaves it empty
    have hp' : p'.isVisible = false := by simpa using hvisible
    have hnone : ∀ x ∈ before ++ p' :: behind, x.isVisible = false := by
      simpa [or_imp, forall_and, hp'] using ⟨hbefore, hbehind⟩
    have htext : (if before.any Piece.isHidden = true then p'.mapLiteral Text.trimStart
        else p').text = [] := by
      split_ifs
      · exact Piece.text_mapLiteral_of_not_isVisible rfl hp'
      · exact Piece.text_of_not_isVisible hp'
    rw [trimFirst_of_not_isVisible _ _ hnone, flatMap_text_of_not_isVisible hnone]
    exact htext.symm

/-- Of several visible pieces, the first and the last are trimmed. -/
theorem trimStranded_two (hp : p.isVisible = true) {q : Piece} (hq : q.isVisible = true)
    (mid : List Piece) :
    trimStranded (before ++ p :: (mid ++ q :: behind)) =
      before ++ p.trimmed (before.any Piece.isHidden) false ::
        (mid ++ q.trimmed false (behind.any Piece.isHidden) :: behind) := by
  have hsplit : before ++ p :: (mid ++ q :: behind) = (before ++ p :: mid) ++ q :: behind := by simp
  rw [trimStranded, hsplit, trimLast_append hbehind hq, List.append_assoc, List.cons_append,
    trimFirst_append _ _ hbefore hp, Bool.false_or]
  rfl

end Ends

/-! ## By number -/

/-- The pieces from number `a` up to number `b`, when there are that many. -/
def range? (a b : Nat) (ps : List Piece) : Option (List Piece) :=
  if a ≤ b ∧ b ≤ ps.length then some ((ps.take b).drop a) else none

/-- The number of the first visible piece. -/
def firstVisible? (ps : List Piece) : Option Nat := ps.findIdx? Piece.isVisible

/-- The number of the last visible piece. -/
def lastVisible? (ps : List Piece) : Option Nat :=
  (firstVisible? ps.reverse).map fun k => ps.length - 1 - k

/-- Piece number `i` without the blanks that are stranded `before` it or `behind` it, when it is
the first visible one or the last. -/
def trimAt (first last : Nat) (before behind : Bool) (i : Nat) (p : Piece) : Piece :=
  let p := if i = first && before then p.mapLiteral Text.trimStart else p
  if i = last && behind then p.mapLiteral Text.trimEnd else p

/-- What the pieces show, each range of them looked up by its numbers. -/
def trimEnds? (ps : List Piece) : Option Text :=
  match firstVisible? ps with
  | none => some []
  | some first => do
    let last := (lastVisible? ps).getD first
    let before ← range? 0 first ps
    let behind ← range? (last + 1) ps.length ps
    let trim := trimAt first last (before.any Piece.isHidden) (behind.any Piece.isHidden)
    some ((ps.mapIdx trim).flatMap Piece.text)

theorem range?_left (us vs : List Piece) : range? 0 us.length (us ++ vs) = some us := by
  simp [range?]

theorem range?_right (us vs : List Piece) :
    range? us.length (us ++ vs).length (us ++ vs) = some vs := by
  have hwithin : us.length ≤ (us ++ vs).length ∧ (us ++ vs).length ≤ (us ++ vs).length := by simp
  rw [range?, if_pos hwithin, List.take_length, List.drop_left]

theorem firstVisible?_append {before : List Piece} {p : Piece}
    (hbefore : ∀ x ∈ before, x.isVisible = false) (hp : p.isVisible = true) (rest : List Piece) :
    firstVisible? (before ++ p :: rest) = some before.length := by
  have hnone : before.findIdx? Piece.isVisible = none := by simpa using hbefore
  rw [firstVisible?, List.findIdx?_append, hnone, List.findIdx?_cons, hp]
  simp

theorem lastVisible?_append {behind : List Piece} {p : Piece}
    (hbehind : ∀ x ∈ behind, x.isVisible = false) (hp : p.isVisible = true) (front : List Piece) :
    lastVisible? (front ++ p :: behind) = some front.length := by
  have hreverse : (front ++ p :: behind).reverse = behind.reverse ++ p :: front.reverse := by simp
  rw [lastVisible?, hreverse, firstVisible?_append (by simpa using hbehind) hp, Option.map_some,
    List.length_reverse, List.length_append, List.length_cons]
  congr 1
  omega

/-- Pieces that are neither the first visible one nor the last stay as they are. -/
theorem mapIdx_trimAt {first last k : Nat} (before behind : Bool) {ps : List Piece}
    (h : ∀ i < ps.length, i + k ≠ first ∧ i + k ≠ last) :
    ps.mapIdx (fun i => trimAt first last before behind (i + k)) = ps := by
  apply List.ext_getElem
  · simp
  · intro i hi hi'
    obtain ⟨hfirst, hlast⟩ := h i hi'
    simp [trimAt, hfirst, hlast]

/-- The only visible piece is trimmed at both ends. -/
theorem trimAt_same (n : Nat) (before behind : Bool) (p : Piece) :
    trimAt n n before behind n p = p.trimmed before behind := by
  simp [trimAt, Piece.trimmed]

/-- Around the first visible piece and the last, everything stays as it is. -/
theorem mapIdx_trimAt_ends (stranded trailing : Bool) (before middle behind : List Piece)
    {first last : Nat} (hfirst : before.length ≤ first ∧ first < before.length + middle.length)
    (hlast : before.length ≤ last ∧ last < before.length + middle.length) :
    (before ++ (middle ++ behind)).mapIdx (trimAt first last stranded trailing) =
      before ++ (middle.mapIdx (fun i => trimAt first last stranded trailing (i + before.length))
        ++ behind) := by
  have hleft : before.mapIdx (trimAt first last stranded trailing) = before := by
    apply mapIdx_trimAt (k := 0)
    intro i hi
    omega
  have hright : behind.mapIdx (fun i =>
      trimAt first last stranded trailing (i + (middle.length + before.length))) = behind := by
    apply mapIdx_trimAt
    intro i hi
    omega
  rw [List.mapIdx_append, List.mapIdx_append, hleft]
  simp only [Nat.add_assoc, hright]

/-- Of the pieces from the first visible one to the last, only these two change. -/
theorem mapIdx_trimAt_middle (stranded trailing : Bool) (p q : Piece) (mid : List Piece) (n : Nat) :
    (p :: (mid ++ [q])).mapIdx (fun i =>
        trimAt n (n + (mid.length + 1)) stranded trailing (i + n)) =
      (if stranded then p.mapLiteral Text.trimStart else p) ::
        (mid ++ [if trailing then q.mapLiteral Text.trimEnd else q]) := by
  have hmid : mid.mapIdx (fun i =>
      trimAt n (n + (mid.length + 1)) stranded trailing (i + (1 + n))) = mid := by
    apply mapIdx_trimAt
    intro i hi
    omega
  have hfirst : trimAt n (n + (mid.length + 1)) stranded trailing n p =
      if stranded then p.mapLiteral Text.trimStart else p := by
    simp [trimAt]
  have hlast : trimAt n (n + (mid.length + 1)) stranded trailing (n + (mid.length + 1)) q =
      if trailing then q.mapLiteral Text.trimEnd else q := by
    simp [trimAt]
  rw [List.mapIdx_cons, List.mapIdx_append, List.mapIdx_cons, List.mapIdx_nil]
  simp only [Nat.add_assoc, hmid, Nat.zero_add]
  have hnumber : mid.length + (1 + n) = n + (mid.length + 1) := by omega
  rw [hfirst, hnumber, hlast]

section Ends

variable {before behind : List Piece} {p : Piece} (hbefore : ∀ x ∈ before, x.isVisible = false)
  (hp : p.isVisible = true) (hbehind : ∀ x ∈ behind, x.isVisible = false)

include hbefore hp hbehind

/-- Only one piece is visible. -/
theorem trimEnds?_one : trimEnds? (before ++ p :: behind) =
    some ((trimStranded (before ++ p :: behind)).flatMap Piece.text) := by
  have hrange : range? (before.length + 1) (before ++ p :: behind).length (before ++ p :: behind) =
      some behind := by
    have hright := range?_right (before ++ [p]) behind
    simpa using hright
  have hmap (s e : Bool) : (before ++ p :: behind).mapIdx (trimAt before.length before.length s e) =
      before ++ trimAt before.length before.length s e before.length p :: behind := by
    have hends := @mapIdx_trimAt_ends s e before [p] behind before.length before.length (by simp)
      (by simp)
    simpa using hends
  rw [trimEnds?, firstVisible?_append hbefore hp, lastVisible?_append hbehind hp]
  simp only [Option.getD_some, range?_left, hrange, hmap, Option.bind_eq_bind, Option.bind_some]
  rw [trimAt_same, flatMap_text_alone hbefore hbehind, text_trimStranded_one hbefore hbehind hp]

/-- Two pieces or more are visible. -/
theorem trimEnds?_two {q : Piece} (hq : q.isVisible = true) (mid : List Piece) :
    trimEnds? (before ++ p :: (mid ++ q :: behind)) =
      some ((trimStranded (before ++ p :: (mid ++ q :: behind))).flatMap Piece.text) := by
  have hsplit : before ++ p :: (mid ++ q :: behind) = (before ++ p :: mid) ++ q :: behind := by simp
  have hrange : range? ((before ++ p :: mid).length + 1)
      (before ++ p :: (mid ++ q :: behind)).length (before ++ p :: (mid ++ q :: behind)) =
        some behind := by
    have hright := range?_right (before ++ p :: mid ++ [q]) behind
    simpa [Nat.add_assoc] using hright
  have hmap (s e : Bool) : (before ++ p :: (mid ++ q :: behind)).mapIdx
        (trimAt before.length (before ++ p :: mid).length s e) =
      before ++ (if s then p.mapLiteral Text.trimStart else p) ::
        (mid ++ (if e then q.mapLiteral Text.trimEnd else q) :: behind) := by
    have hlast : (before ++ p :: mid).length = before.length + (mid.length + 1) := by simp
    have hends := @mapIdx_trimAt_ends s e before (p :: (mid ++ [q])) behind before.length
      (before.length + (mid.length + 1)) (by simp) (by simp)
    rw [mapIdx_trimAt_middle] at hends
    rw [hlast]
    simpa using hends
  have hlast : lastVisible? (before ++ p :: (mid ++ q :: behind)) =
      some (before ++ p :: mid).length := by
    rw [hsplit, lastVisible?_append hbehind hq]
  rw [trimEnds?, firstVisible?_append hbefore hp, hlast]
  simp only [Option.getD_some, range?_left, hrange, hmap, Option.bind_eq_bind, Option.bind_some]
  rw [trimStranded_two hbefore hbehind hp hq]
  rfl

end Ends

/-- Trimming by number always finds its ranges, and shows what the walks leave. -/
theorem trimEnds?_eq (ps : List Piece) :
    trimEnds? ps = some ((trimStranded ps).flatMap Piece.text) := by
  by_cases hnone : ∀ p ∈ ps, p.isVisible = false
  · have hfirst : firstVisible? ps = none := by simpa [firstVisible?] using hnone
    rw [trimEnds?, hfirst, trimStranded_of_not_isVisible hnone, flatMap_text_of_not_isVisible hnone]
  · obtain ⟨before, p, rest, rfl, hbefore, hp⟩ := exists_first hnone
    by_cases hrest : ∀ x ∈ rest, x.isVisible = false
    · exact trimEnds?_one hbefore hp hrest
    · obtain ⟨mid, q, behind, rfl, hbehind, hq⟩ := exists_last hrest
      exact trimEnds?_two hbefore hp hbehind hq mid

end Fanout
