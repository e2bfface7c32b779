import Fanout.Proofs.Contents

/-!
# Moving paths into their groups

The external path of a group stands in the literal in front of its slot, or, once it is absorbed, in
the slot itself. A literal has its escaped delimiters and commas restored; a path in a slot is shown
as it is written. So moving a path keeps a command when the path has none of them escaped, and only
then.

* `Text.Sheds`: an ending of a text that the rest of it does not reach over.
* `Reader.Led`: each path that is read is such an ending of the literal in front of its slot.
* `filled_absorb`, `filled_foldl_absorb`: what one path and then several take along.
* `Generator.moved`: a template with the paths of some groups in their slots; building makes one
  (`Built.eq_moved`).
* `commandOf_moved_iff_taken`: the commands with the paths in their slots, and with none.
  `commandOf_moved_eq_iff` says it of the paths, and `commandOf_built_eq_iff` of what was built.
-/

namespace Fanout

/-! ## Endings -/

namespace Text

/-- The text ends with `ending`, and the rest of it escapes no character of the ending. -/
def Sheds (ending t : Text) : Prop := ∃ u, t = u ++ ending ∧ dangles false u = false

theorem sheds_self (t : Text) : Sheds t t := ⟨[], rfl, rfl⟩

theorem sheds_nil {t : Text} (h : dangles false t = false) : Sheds [] t :=
  ⟨t, (List.append_nil t).symm, h⟩

theorem Sheds.append {ending t : Text} (h : Sheds ending t) (u : Text) :
    Sheds (ending ++ u) (t ++ u) := by
  obtain ⟨opening, rfl, hopening⟩ := h
  exact ⟨opening, List.append_assoc .., hopening⟩

/-- The backslashes that are dropped from the text are those of its two parts. -/
theorem Sheds.unescape_eq {p : Char → Bool} {ending t : Text} (h : Sheds ending t) :
    unescape p t = unescape p (dropEnding ending t) ++ unescape p ending := by
  obtain ⟨opening, rfl, hopening⟩ := h
  rw [dropEnding_append, unescape_append hopening]

end Text

/-! ## The literal in front of a slot -/

/-- The literal in front of the first slot `k`, if one is there. `last` is the literal in front of
all the pieces. -/
def literalBefore (k : Nat) : Option Text → List Segment → Option Text
  | _, [] => none
  | _, .literal t :: rest => literalBefore k (some t) rest
  | last, .slot j :: rest => if j = k then last else literalBefore k none rest

section Pieces

variable {d : Char} {j k : Nat} {ss : List Segment} {path t : Text} {slot slot' : Nat → Text}

theorem slotsOf_literal (t : Text) (ss : List Segment) :
    slotsOf (.literal t :: ss) = slotsOf ss := rfl

theorem slotsOf_slot (k : Nat) (ss : List Segment) :
    slotsOf (.slot k :: ss) = k :: slotsOf ss := rfl

theorem literalBefore_append {last : Option Text} (h : literalBefore k last ss = some t)
    (us : List Segment) : literalBefore k last (ss ++ us) = some t := by
  induction ss generalizing last with
  | nil => exact absurd h (by simp [literalBefore])
  | cons s ss ih =>
    cases s with
    | literal u => exact ih h
    | slot j =>
      rw [List.cons_append, literalBefore] at *
      split_ifs at * with hj
      · exact h
      · exact ih h

/-- A literal and a slot whose number is new. -/
theorem literalBefore_new (last : Option Text) (h : k ∉ slotsOf ss) (t : Text) :
    literalBefore k last (ss ++ [.literal t, .slot k]) = some t := by
  induction ss generalizing last with
  | nil => simp [literalBefore]
  | cons s ss ih =>
    cases s with
    | literal u => exact ih (some u) h
    | slot j =>
      rw [slotsOf_slot, List.mem_cons, not_or] at h
      obtain ⟨hj, hrest⟩ := h
      rw [List.cons_append, literalBefore, if_neg (Ne.symm hj), ih none hrest]

/-- A path that is cut in front of one slot leaves what is in front of the others. -/
theorem literalBefore_cutBefore (hjk : j ≠ k) (path : Text) (last : Option Text)
    (ss : List Segment) : literalBefore j last (cutBefore k path ss) = literalBefore j last ss := by
  fun_induction cutBefore k path ss generalizing last with
  | case1 t rest => simp [literalBefore, Ne.symm hjk]
  | case2 t i rest hi ih => exact ih (some t)
  | case3 rest => rfl
  | case4 i rest hi ih => rw [literalBefore, literalBefore, ih none]
  | case5 s rest hpair hslot ih =>
    cases s with
    | literal u => exact ih (some u)
    | slot i => exact absurd rfl (hslot i)
  | case6 => rfl

/-! ## What is shown -/

theorem filled_cons_literal (d : Char) (slot : Nat → Text) (t : Text) (ss : List Segment) :
    filled d slot (.literal t :: ss) = Text.unescapeStructural d t ++ filled d slot ss := rfl

theorem filled_cons_slot (d : Char) (slot : Nat → Text) (k : Nat) (ss : List Segment) :
    filled d slot (.slot k :: ss) = slot k ++ filled d slot ss := rfl

theorem filled_congr (h : ∀ k ∈ slotsOf ss, slot k = slot' k) :
    filled d slot ss = filled d slot' ss := by
  refine List.flatMap_congr fun s hs => ?_
  cases s with
  | literal t => rfl
  | slot k => exact h k (mem_slotsOf.mpr hs)

theorem filled_sublist (h : ∀ k ∈ slotsOf ss, (slot k).Sublist (slot' k)) :
    (filled d slot ss).Sublist (filled d slot' ss) := by
  induction ss with
  | nil => exact .slnil
  | cons s ss ih =>
    cases s with
    | literal t => exact (List.Sublist.refl _).append (ih h)
    | slot k =>
      obtain ⟨hk, hrest⟩ := List.forall_mem_cons.mp h
      exact hk.append (ih hrest)

/-- When slots have lost characters, what is shown has lost some too. -/
theorem filled_eq_filled_iff (h : ∀ k ∈ slotsOf ss, (slot k).Sublist (slot' k)) :
    filled d slot ss = filled d slot' ss ↔ ∀ k ∈ slotsOf ss, slot k = slot' k := by
  refine ⟨fun heq => ?_, filled_congr⟩
  induction ss with
  | nil => simp [slotsOf]
  | cons s ss ih =>
    cases s with
    | literal t => exact ih h (List.append_cancel_left heq)
    | slot k =>
      obtain ⟨hk, hrest⟩ := List.forall_mem_cons.mp h
      rw [filled_cons_slot, filled_cons_slot] at heq
      -- neither part can make up for what the other has lost
      have hlength := congrArg List.length heq
      rw [List.length_append, List.length_append] at hlength
      have hle := (filled_sublist (d := d) hrest).length_le
      have hslot : slot k = slot' k := hk.eq_of_length (by have := hk.length_le; omega)
      rw [hslot] at heq
      exact List.forall_mem_cons.mpr ⟨hslot, ih hrest (List.append_cancel_left heq)⟩

/-- A path that is cut in front of its slot shows as before when the slot shows it instead. -/
theorem filled_cutBefore (hliteral : literalBefore k none ss = some t) (hpath : Text.Sheds path t)
    (hnodup : (slotsOf ss).Nodup) (slot : Nat → Text) :
    filled d slot ss =
      filled d (Function.update slot k (Text.unescapeStructural d path ++ slot k))
        (cutBefore k path ss) := by
  have hother {j : Nat} (hj : j ≠ k) : Function.update slot k
      (Text.unescapeStructural d path ++ slot k) j = slot j := Function.update_of_ne hj _ _
  fun_induction cutBefore k path ss with
  | case1 u rest =>
    obtain rfl : u = t := by simpa [literalBefore] using hliteral
    rw [slotsOf_literal, slotsOf_slot, List.nodup_cons] at hnodup
    have hrest : filled d slot rest = filled d (Function.update slot k
        (Text.unescapeStructural d path ++ slot k)) rest := by
      refine filled_congr fun j hj => (hother ?_).symm
      rintro rfl
      exact hnodup.1 hj
    simp only [filled_cons_literal, filled_cons_slot, Function.update_self, hrest,
      Text.unescapeStructural, hpath.unescape_eq, List.append_assoc]
  | case2 u j rest hj ih =>
    rw [literalBefore, literalBefore, if_neg hj] at hliteral
    rw [filled_cons_literal, filled_cons_literal, ih (by rwa [literalBefore, if_neg hj]) hnodup]
  | case3 rest => exact absurd hliteral (by simp [literalBefore])
  | case4 j rest hj ih =>
    rw [literalBefore, if_neg hj] at hliteral
    rw [slotsOf_slot, List.nodup_cons] at hnodup
    rw [filled_cons_slot, filled_cons_slot, hother hj, ih hliteral hnodup.2]
  | case5 s rest hpair hslot ih =>
    cases s with
    | slot j => exact absurd rfl (hslot j)
    | literal u =>
      have hnext : literalBefore k none rest = some t := by
        cases rest with
        | nil => exact absurd hliteral (by simp [literalBefore])
        | cons x rest =>
          cases x with
          | slot j => exact absurd rfl (hpair u j rest rfl)
          | literal v => exact hliteral
      rw [filled_cons_literal, filled_cons_literal, ih hnext hnodup]
  | case6 => exact absurd hliteral (by simp [literalBefore])

end Pieces

/-! ## Reading -/

/-- The path in front of group `k`. -/
def RawTemplate.path? (raw : RawTemplate) (k : Nat) : Option Text :=
  raw.groups[k]?.bind RawGroup.externalPath

/-- The path in front of group `k` is one that the literal there can be cut before. -/
def RawTemplate.Inherits (raw : RawTemplate) (k : Nat) : Prop :=
  ∃ path t, raw.path? k = some path ∧ literalBefore k none raw.segments = some t ∧
    Text.Sheds path t

namespace Reader

variable {style : GroupStyle} {r : Reader}

/-- What may become the lead of a group is an ending of the literal, and the path of each group that
was read is one of the literal in front of its slot. -/
structure Led (r : Reader) : Prop where
  quoted : Text.Sheds r.quoted.reverse r.literal.reverse
  run : Text.Sheds r.run.reverse r.literal.reverse
  lead : ∀ g, r.opened = some g → Text.Sheds g.lead r.literal.reverse
  paths : ∀ k x path, r.groups[k]? = some x → x.externalPath = some path →
    ∃ t, literalBefore k none r.segments = some t ∧ Text.Sheds path t

theorem Led.leadOf (h : r.Led) (q : QuoteContext) :
    Text.Sheds (leadOf q r.quoted.reverse r.run.reverse) r.literal.reverse := by
  unfold Fanout.leadOf
  split_ifs
  · exact h.quoted
  · exact h.run

theorem Led.keep (h : r.Led) (c : Char) : (r.keep c).Led := by
  unfold Reader.keep
  cases ho : r.opened with
  | none =>
    refine ⟨?_, ?_, fun g hg => absurd hg (by simp), h.paths⟩
    · simpa using h.quoted.append [c]
    · simpa using h.run.append [c]
  | some g =>
    refine ⟨h.quoted, h.run, fun g' hg' => ?_, h.paths⟩
    obtain rfl := Option.some.inj hg'
    exact h.lead g ho

/-- Behind a quote or a blank, which is no backslash, a path begins anew. -/
theorem Led.keep_stop (h : r.Led) (c : Char) : ((r.keep c).stop c).Led := by
  have hkeep := h.keep c
  have hnil (ho : ¬(r.keep c).opened.isSome) (hc : c ≠ '\\') :
      Text.Sheds [] (r.keep c).literal.reverse := by
    have hopened : r.opened = none := by simpa [keep_opened] using ho
    refine Text.sheds_nil ?_
    simp [Reader.keep, hopened, Text.escapesNext_of_ne hc]
  unfold Reader.stop
  split_ifs with ho hquote hblank
  · exact hkeep
  · have hc : c ≠ '\\' := by
      rintro rfl
      exact absurd hquote (by decide)
    exact ⟨hnil ho hc, hnil ho hc, hkeep.lead, hkeep.paths⟩
  · have hc : c ≠ '\\' := by
      rintro rfl
      exact absurd hblank (by decide)
    exact ⟨hkeep.quoted, hnil ho hc, hkeep.lead, hkeep.paths⟩
  · exact hkeep

theorem Led.delimit (h : r.Led) (hnumbered : r.Numbered) : (r.delimit style).Led := by
  unfold Reader.delimit
  cases ho : r.opened with
  | none =>
    refine ⟨h.quoted, h.run, fun g hg => ?_, h.paths⟩
    obtain rfl := Option.some.inj hg
    exact h.leadOf r.scanner.context
  | some g =>
    refine ⟨Text.sheds_self [], Text.sheds_self [], fun g hg => absurd hg (by simp), ?_⟩
    intro k x path hx hpath
    by_cases hk : k < r.groups.length
    · rw [List.getElem?_append_left hk] at hx
      obtain ⟨t, ht, hsheds⟩ := h.paths k x path hx hpath
      exact ⟨t, literalBefore_append ht _, hsheds⟩
    · -- the group that is closed now, behind the literal that ends with its lead
      obtain ⟨rfl, hclose⟩ : k = r.groups.length ∧ g.close style = x := by
        rw [List.getElem?_append_right (by omega), List.getElem?_singleton] at hx
        split_ifs at hx with hlast
        exact ⟨by omega, Option.some.inj hx⟩
      have hnew : r.groups.length ∉ slotsOf r.segments := by
        rw [hnumbered]
        exact List.not_mem_range_self
      have hlead : path = g.lead := by
        rw [← hclose] at hpath
        simp only [OpenGroup.close] at hpath
        split_ifs at hpath
        exact (Option.some.inj hpath).symm
      exact ⟨_, literalBefore_new none hnew _, hlead ▸ h.lead g ho⟩

theorem Led.step (h : r.Led) (hnumbered : r.Numbered) (c : Char) : (r.step style c).Led := by
  have hscanned : Led { r with scanner := r.scanner.next c r.opened.isNone } :=
    ⟨h.quoted, h.run, h.lead, h.paths⟩
  have hoffset {r' : Reader} (h' : r'.Led) (n : Nat) : Led { r' with offset := n } :=
    ⟨h'.quoted, h'.run, h'.lead, h'.paths⟩
  unfold Reader.step
  refine hoffset ?_ _
  split_ifs
  · exact hscanned.keep c
  · exact hscanned.delimit hnumbered
  · exact hscanned.keep_stop c

theorem Led.foldl (h : r.Led) (hnumbered : r.Numbered) (t : Text) :
    (t.foldl (Reader.step style) r).Led := by
  induction t generalizing r with
  | nil => exact h
  | cons c t ih => exact ih (h.step hnumbered c) (hnumbered.step c)

end Reader

/-- Every path that is read is one that the literal in front of it can be cut before. -/
theorem inherits_of_read {style : GroupStyle} {line : Text} {raw : RawTemplate}
    (h : RawTemplate.read style line = .ok raw) {k : Nat} {path : Text}
    (hpath : raw.path? k = some path) : raw.Inherits k := by
  have hempty := Text.sheds_self []
  have hstart : Reader.Led {} :=
    ⟨hempty, hempty, fun _ h => absurd h (by simp), fun _ _ _ h => absurd h (by simp)⟩
  have hled : (line.foldl (Reader.step style) {}).Led := hstart.foldl rfl line
  rw [RawTemplate.read, Reader.finish] at h
  split at h
  · exact absurd h (by simp)
  · obtain rfl := Except.ok.inj h
    obtain ⟨x, hx, hpath'⟩ := Option.bind_eq_some_iff.mp hpath
    obtain ⟨t, ht, hsheds⟩ := hled.paths k x path hx hpath'
    exact ⟨path, t, hpath, literalBefore_append ht _, hsheds⟩

/-! ## Absorbing -/

namespace RawTemplate

variable {raw : RawTemplate} {d : Char} {j k : Nat}

theorem path?_absorb (raw : RawTemplate) (k : Nat) : (raw.absorb k).path? = raw.path? := by
  unfold absorb path?
  split <;> rfl

theorem absorb_of_path {path : Text} (h : raw.path? k = some path) :
    (raw.absorb k).segments = cutBefore k path raw.segments := by
  rw [path?] at h
  simp [absorb, h]

/-- The path of one group is still in front of it when that of another has moved. -/
theorem Inherits.absorb (h : raw.Inherits j) (hjk : j ≠ k) : (raw.absorb k).Inherits j := by
  obtain ⟨path, t, hpath, ht, hsheds⟩ := h
  refine ⟨path, t, by rwa [path?_absorb], ?_, hsheds⟩
  cases hk : raw.path? k with
  | none =>
    rw [path?] at hk
    simpa [RawTemplate.absorb, hk] using ht
  | some moved => rw [absorb_of_path hk, literalBefore_cutBefore hjk, ht]

/-- A path that has moved shows as before when its slot shows it with its escapes restored. -/
theorem filled_absorb (h : raw.Inherits k) (hnodup : (slotsOf raw.segments).Nodup)
    (slot : Nat → Text) :
    filled d slot raw.segments =
      filled d (Function.update slot k
        (Text.unescapeStructural d ((raw.path? k).getD []) ++ slot k)) (raw.absorb k).segments := by
  obtain ⟨path, t, hpath, ht, hsheds⟩ := h
  rw [absorb_of_path hpath, hpath, Option.getD_some]
  exact filled_cutBefore ht hsheds hnodup slot

/-- The text that a slot takes along when the paths of the groups in `A` have moved. -/
def taken (raw : RawTemplate) (A : List Nat) (k : Nat) : Text :=
  if k ∈ A then (raw.path? k).getD [] else []

/-- What slots take along reads the same with escapes restored when the paths that move do. -/
theorem unescape_taken_iff (raw : RawTemplate) (A : List Nat) (d : Char) :
    (∀ k < raw.groups.length, Text.unescapeStructural d (raw.taken A k) = raw.taken A k) ↔
      ∀ k ∈ A, ∀ path, raw.path? k = some path → Text.unescapeStructural d path = path := by
  constructor
  · intro h k hk path hpath
    obtain ⟨x, hx, -⟩ := Option.bind_eq_some_iff.mp hpath
    have htaken := h k (List.getElem?_eq_some_iff.mp hx).1
    rwa [taken, if_pos hk, hpath] at htaken
  · intro h k _
    by_cases hk : k ∈ A
    · rw [taken, if_pos hk]
      cases hpath : raw.path? k with
      | none => rfl
      | some path => exact h k hk path hpath
    · rw [taken, if_neg hk]
      rfl

theorem filled_foldl_absorb {A : List Nat} (hA : A.Nodup) (h : ∀ k ∈ A, raw.Inherits k)
    (hnodup : (slotsOf raw.segments).Nodup) (slot : Nat → Text) :
    filled d slot raw.segments =
      filled d (fun k => Text.unescapeStructural d (raw.taken A k) ++ slot k)
        (A.foldl RawTemplate.absorb raw).segments := by
  induction A generalizing raw slot with
  | nil => simp [taken, Text.unescapeStructural, Text.unescape]
  | cons k A ih =>
    obtain ⟨hk, hA⟩ := List.nodup_cons.mp hA
    obtain ⟨hinherits, hrest⟩ := List.forall_mem_cons.mp h
    have hstill : ∀ j ∈ A, (raw.absorb k).Inherits j := by
      intro j hj
      refine (hrest j hj).absorb ?_
      rintro rfl
      exact hk hj
    rw [filled_absorb hinherits hnodup, ih hA hstill (by rwa [slotsOf_absorb]), List.foldl_cons]
    congr 1
    funext j
    by_cases hj : j = k
    · subst hj
      simp [taken, hk, Text.unescapeStructural, Text.unescape]
    · simp [taken, path?_absorb, hj]

end RawTemplate

/-! ## Commands -/

/-- The group is the written one, with some terms. -/
structure RawGroup.Fits (x : RawGroup) (g : Group) : Prop where
  hidden : g.hidden = x.hidden
  externalPath : g.externalPath = x.externalPath
  quote : g.quote = x.quote
  backref : g.backref = backref? x.terms

theorem fits_of_expandGroup {t : FileTree} {d : Char} {x : RawGroup} {g : Group}
    (h : expandGroup t d x = .ok g) : x.Fits g := by
  obtain ⟨es, -, rfl⟩ := expandGroup_ok h
  exact ⟨rfl, rfl, rfl, rfl⟩

namespace Generator

/-- A template with groups, where the paths of the groups in `A` have moved into their slots. -/
def moved (d : Char) (raw : RawTemplate) (groups : List Group) (A : List Nat) : Generator where
  template := .ofSegments (A.foldl RawTemplate.absorb raw).segments d
  groups := groups.mapIdx fun k g => { g with absorbed := decide (k ∈ A) }

/-- The groups that absorb their paths, by their numbers. -/
theorem mem_absorbing {gs : List Group} {n m : Nat} :
    m ∈ absorbing n gs ↔ ∃ k g, m = n + k ∧ gs[k]? = some g ∧ g.absorbed = true := by
  induction gs generalizing n with
  | nil => simp [absorbing]
  | cons g gs ih =>
    have hmem : m ∈ absorbing n (g :: gs) ↔
        (m = n ∧ g.absorbed = true) ∨ m ∈ absorbing (n + 1) gs := by
      rw [absorbing]
      split_ifs with ha <;> simp [ha]
    rw [hmem, ih]
    constructor
    · rintro (⟨rfl, ha⟩ | ⟨k, x, rfl, hx, ha⟩)
      · exact ⟨0, g, rfl, rfl, ha⟩
      · exact ⟨k + 1, x, by omega, hx, ha⟩
    · rintro ⟨k, x, rfl, hx, ha⟩
      cases k with
      | zero =>
        obtain rfl : g = x := Option.some.inj hx
        exact .inl ⟨rfl, ha⟩
      | succ k => exact .inr ⟨k, x, by omega, hx, ha⟩

theorem mem_absorbing_zero {gs : List Group} {k : Nat} :
    k ∈ absorbing 0 gs ↔ ∃ g, gs[k]? = some g ∧ g.absorbed = true := by
  simp [mem_absorbing]

theorem nodup_absorbing {gs : List Group} {n : Nat} : (absorbing n gs).Nodup := by
  induction gs generalizing n with
  | nil => exact List.nodup_nil
  | cons g gs ih =>
    rw [absorbing]
    split_ifs
    · refine List.nodup_cons.mpr ⟨fun h => ?_, ih⟩
      obtain ⟨k, x, hk, -⟩ := mem_absorbing.mp h
      omega
    · exact ih

/-- Building gives each group its terms, and moves the paths of the groups that absorb them. -/
theorem Built.eq_moved {t : FileTree} {style : GroupStyle} {line : Text} {g : Generator}
    {raw : RawTemplate} (h : g.Built t style line raw) :
    g = moved style.delimiter raw g.groups (absorbing 0 g.groups) ∧
      List.Forall₂ RawGroup.Fits raw.groups g.groups := by
  have hmarked : (moved style.delimiter raw g.groups (absorbing 0 g.groups)).groups = g.groups := by
    refine List.ext_getElem? fun k => ?_
    rw [moved, List.getElem?_mapIdx]
    cases hk : g.groups[k]? with
    | none => rfl
    | some x =>
      have habsorbed : (k ∈ absorbing 0 g.groups) ↔ x.absorbed = true := by
        simp [mem_absorbing_zero, hk]
      simp [habsorbed]
  have htemplate : g.template =
      (moved style.delimiter raw g.groups (absorbing 0 g.groups)).template := h.template
  refine ⟨?_, h.groups.imp fun _ _ => fits_of_expandGroup⟩
  obtain ⟨template, groups⟩ := g
  exact congrArg₂ Generator.mk htemplate hmarked.symm

section Moved

variable {d : Char} {raw : RawTemplate} {groups : List Group} {bound : List Term} {A : List Nat}

/-- A slot shows the path that has moved into it, and then its term. -/
theorem slotTexts_moved {k : Nat} {x : RawGroup} {g : Group} {term : Term}
    (hx : raw.groups[k]? = some x) (hg : groups[k]? = some g) (hterm : bound[k]? = some term)
    (hfits : x.Fits g) (hhidden : x.hidden = false) (hbackref : k ∈ A → backref? x.terms = none) :
    ((moved d raw groups A).slotTexts bound)[k]? =
      some (some (raw.taken A k ++ quoteTerm g.quote term.node term.value)) := by
  have hpath : raw.path? k = g.externalPath := by
    rw [RawTemplate.path?, hx, hfits.externalPath]
    rfl
  have hmoved : (moved d raw groups A).groups[k]? =
      some { g with absorbed := decide (k ∈ A) } := by
    simp [moved, List.getElem?_mapIdx, hg]
  have hshown : Group.shownPath { g with absorbed := decide (k ∈ A) } = raw.taken A k := by
    by_cases hk : k ∈ A
    · simp [Group.shownPath, Group.branches, RawTemplate.taken, hk, hpath, hfits.backref,
        hbackref hk]
    · simp [Group.shownPath, RawTemplate.taken, hk]
  have htext : Group.slotText { g with absorbed := decide (k ∈ A) } term =
      some (raw.taken A k ++ quoteTerm g.quote term.node term.value) := by
    rw [Group.slotText, hshown, hfits.hidden, hhidden, if_neg (by decide)]
  rw [slotTexts, List.getElem?_zipWith, hmoved, hterm, ← htext]

variable {style : GroupStyle} {line : Text} (hread : RawTemplate.read style line = .ok raw)
  (hgroups : List.Forall₂ RawGroup.Fits raw.groups groups)
  (hbound : bound.length = raw.groups.length) (hhidden : ∀ x ∈ raw.groups, x.hidden = false)

include hread in
/-- Moving paths leaves the slots of a line numbered in order. -/
theorem slotsOf_moved : slotsOf (A.foldl RawTemplate.absorb raw).segments =
    List.range raw.groups.length := by
  rw [slotsOf_foldl_absorb, slotsOf_read hread]

include hgroups hbound hhidden

/-- With no group hidden, each slot shows a term, behind the path that has moved there. -/
theorem exists_slotTexts_moved {k : Nat} (hk : k < raw.groups.length) : ∃ text, ∀ A : List Nat,
    (∀ k ∈ A, ∀ x, raw.groups[k]? = some x → backref? x.terms = none) →
      ((moved d raw groups A).slotTexts bound)[k]? = some (some (raw.taken A k ++ text)) := by
  have hk' : k < groups.length := by rwa [← hgroups.length_eq]
  have hterm : bound[k]? = some bound[k] := List.getElem?_eq_getElem (by omega)
  have hx := List.getElem?_eq_getElem hk
  have hg := List.getElem?_eq_getElem hk'
  have hfits : raw.groups[k].Fits groups[k] := hgroups.get hk hk'
  exact ⟨_, fun A hbackref => slotTexts_moved hx hg hterm hfits
    (hhidden _ (List.getElem_mem hk)) fun hkA => hbackref k hkA _ hx⟩

include hread

/-- With no group hidden, the command of a line is its pieces in order, and a slot shows the path
that has moved there in front of what it shows otherwise. -/
theorem commandOf_moved
    (hbackref : ∀ k ∈ A, ∀ x, raw.groups[k]? = some x → backref? x.terms = none) :
    (moved d raw groups A).commandOf bound =
      filled d (fun k => raw.taken A k ++ (moved d raw groups []).slotAt bound k)
        (A.foldl RawTemplate.absorb raw).segments := by
  have htexts {k : Nat} (hk : k < raw.groups.length) :=
    exists_slotTexts_moved (d := d) hgroups hbound hhidden hk
  have htemplate : (moved d raw groups A).template =
      .ofSegments (A.foldl RawTemplate.absorb raw).segments d := rfl
  rw [commandOf, htemplate, render_ofSegments]
  · refine filled_congr fun k hk => ?_
    rw [slotsOf_moved hread, List.mem_range] at hk
    obtain ⟨text, htext⟩ := htexts hk
    have hnone := htext [] (by simp)
    rw [slotAt, htext A hbackref, hnone]
    simp [RawTemplate.taken]
  · intro k hk
    rw [← mem_slotsOf, slotsOf_moved hread, List.mem_range] at hk
    obtain ⟨text, htext⟩ := htexts hk
    exact ⟨_, htext A hbackref⟩

/-- Where no path has moved, the escapes in the paths are restored with those of the literals. -/
theorem commandOf_kept (hA : A.Nodup) (hinherits : ∀ k ∈ A, raw.Inherits k) :
    (moved d raw groups []).commandOf bound =
      filled d (fun k => Text.unescapeStructural d (raw.taken A k) ++
        (moved d raw groups []).slotAt bound k) (A.foldl RawTemplate.absorb raw).segments := by
  have hnodup : (slotsOf raw.segments).Nodup := by
    rw [slotsOf_read hread]
    exact List.nodup_range
  rw [commandOf_moved hread hgroups hbound hhidden (by simp), List.foldl_nil]
  simp only [RawTemplate.taken, List.not_mem_nil, if_false, List.nil_append]
  exact RawTemplate.filled_foldl_absorb hA hinherits hnodup _

/-- A command is kept when what its slots take along reads the same with escapes restored. -/
theorem commandOf_moved_iff_taken (hA : A.Nodup) (hinherits : ∀ k ∈ A, raw.Inherits k)
    (hbackref : ∀ k ∈ A, ∀ x, raw.groups[k]? = some x → backref? x.terms = none) :
    (moved d raw groups A).commandOf bound = (moved d raw groups []).commandOf bound ↔
      ∀ k < raw.groups.length, Text.unescapeStructural d (raw.taken A k) = raw.taken A k := by
  let shown := (moved d raw groups []).slotAt bound
  have hsublist : ∀ k ∈ slotsOf (A.foldl RawTemplate.absorb raw).segments,
      (Text.unescapeStructural d (raw.taken A k) ++ shown k).Sublist
        (raw.taken A k ++ shown k) := fun k _ =>
    (Text.unescape_sublist _ _).append (List.Sublist.refl _)
  rw [commandOf_moved hread hgroups hbound hhidden hbackref,
    commandOf_kept hread hgroups hbound hhidden hA hinherits, eq_comm,
    filled_eq_filled_iff hsublist, slotsOf_moved hread]
  simp only [List.append_left_inj, List.mem_range]

/-- Moving the paths of groups from the literals of a line into their slots keeps a command exactly
when no delimiter and no comma is escaped in any of the paths. -/
theorem commandOf_moved_eq_iff (hA : A.Nodup)
    (hpaths : ∀ k ∈ A, ∃ x, raw.groups[k]? = some x ∧ x.externalPath ≠ none ∧
      backref? x.terms = none) :
    (moved d raw groups A).commandOf bound = (moved d raw groups []).commandOf bound ↔
      ∀ k ∈ A, ∀ path, raw.path? k = some path → Text.unescapeStructural d path = path := by
  have hbackref : ∀ k ∈ A, ∀ x, raw.groups[k]? = some x → backref? x.terms = none := by
    intro k hk x hx
    obtain ⟨y, hy, -, hterms⟩ := hpaths k hk
    obtain rfl : y = x := Option.some.inj (hy.symm.trans hx)
    exact hterms
  have hinherits : ∀ k ∈ A, raw.Inherits k := by
    intro k hk
    obtain ⟨x, hx, hpath, -⟩ := hpaths k hk
    obtain ⟨path, hpath⟩ := Option.ne_none_iff_exists'.mp hpath
    exact inherits_of_read hread (by rw [RawTemplate.path?, hx, Option.bind_some, hpath])
  rw [commandOf_moved_iff_taken hread hgroups hbound hhidden hA hinherits hbackref,
    RawTemplate.unescape_taken_iff]

end Moved

/-- A line with two paths, one of them with a backslash that escapes neither a delimiter nor a comma. -/
def twoPathsLine : Text := "cp a/@x@ b\\c/@y,z@".toList

/-- What is read of it. -/
def twoPathsTemplate : RawTemplate where
  segments := [.literal "cp a/".toList, .slot 0, .literal " b\\c/".toList, .slot 1, .literal []]
  groups :=
    [⟨false, [['x']], some "a/".toList, .plain, 5⟩,
      ⟨false, [['y'], ['z']], some "b\\c/".toList, .plain, 13⟩]

/-- The groups in it, with their terms. -/
def twoPathsGroups : List Group :=
  [{ terms := [⟨['x'], false⟩], externalPath := some "a/".toList },
    { terms := [⟨['y'], false⟩, ⟨['z'], false⟩], externalPath := some "b\\c/".toList }]

theorem commandOf_moved_twoPaths :
    RawTemplate.read {} twoPathsLine = .ok twoPathsTemplate ∧
      List.Forall₂ RawGroup.Fits twoPathsTemplate.groups twoPathsGroups ∧
      (moved '@' twoPathsTemplate twoPathsGroups [1, 0]).commandOf [⟨['x'], false⟩, ⟨['z'], false⟩] =
        (moved '@' twoPathsTemplate twoPathsGroups []).commandOf [⟨['x'], false⟩, ⟨['z'], false⟩] := by
  have hread : RawTemplate.read {} twoPathsLine = .ok twoPathsTemplate := by cbv
  have hfits : List.Forall₂ RawGroup.Fits twoPathsTemplate.groups twoPathsGroups :=
    .cons ⟨rfl, rfl, rfl, rfl⟩ (.cons ⟨rfl, rfl, rfl, rfl⟩ .nil)
  have hhidden : ∀ x ∈ twoPathsTemplate.groups, x.hidden = false := by decide
  have hpaths : ∀ k ∈ [1, 0], ∃ x, twoPathsTemplate.groups[k]? = some x ∧
      x.externalPath ≠ none ∧ backref? x.terms = none := by
    simp [twoPathsTemplate, backref?, Text.isDigits]
  have hrestored : ∀ k ∈ [1, 0], ∀ path, twoPathsTemplate.path? k = some path →
      Text.unescapeStructural '@' path = path := by
    simp [twoPathsTemplate, RawTemplate.path?, Text.unescapeStructural, Text.unescape,
      Text.isStructural]
  exact ⟨hread, hfits, (commandOf_moved_eq_iff hread hfits rfl hhidden (by decide) hpaths).mpr
    hrestored⟩

section Built

variable {t : FileTree} {style : GroupStyle} {line : Text} {g : Generator} {raw : RawTemplate}

/-- A group that absorbs a path has had it in front of it in the template. -/
theorem Built.exists_of_absorbed (h : g.Built t style line raw) {k : Nat} {y : Group}
    (hy : g.groups[k]? = some y) (habsorbed : y.absorbed = true) :
    ∃ x path, raw.groups[k]? = some x ∧ backref? x.terms = none ∧ raw.path? k = some path ∧
      y.externalPath = some path := by
  obtain ⟨hk, rfl⟩ := List.getElem?_eq_some_iff.mp hy
  have hk' : k < raw.groups.length := by rwa [h.groups.length_eq]
  have hexpands := expands_of_expandGroup (h.groups.get hk' hk)
  obtain ⟨hpath, hbackref⟩ := hexpands.of_absorbed habsorbed
  obtain ⟨path, hpath⟩ := Option.ne_none_iff_exists'.mp hpath
  have hx : raw.groups[k]? = some raw.groups[k] := List.getElem?_eq_getElem hk'
  exact ⟨_, path, hx, hbackref, by rw [RawTemplate.path?, hx, Option.bind_some, ← hpath]; rfl,
    hexpands.externalPath.trans hpath⟩

/-- The paths that building moves are those that groups absorb. -/
theorem Built.forall_moved_iff (h : g.Built t style line raw) (P : Text → Prop) :
    (∀ k ∈ absorbing 0 g.groups, ∀ path, raw.path? k = some path → P path) ↔
      ∀ y ∈ g.groups, y.absorbed = true → ∀ path, y.externalPath = some path → P path := by
  constructor
  · intro hmoved y hy habsorbed path hpath
    obtain ⟨k, hk, rfl⟩ := List.getElem_of_mem hy
    have hget := List.getElem?_eq_getElem hk
    obtain ⟨x, path', -, -, hraw, hpath'⟩ := h.exists_of_absorbed hget habsorbed
    obtain rfl : path' = path := Option.some.inj (hpath'.symm.trans hpath)
    exact hmoved k (mem_absorbing_zero.mpr ⟨_, hget, habsorbed⟩) path' hraw
  · intro habsorbs k hk path hpath
    obtain ⟨y, hget, habsorbed⟩ := mem_absorbing_zero.mp hk
    obtain ⟨x, path', -, -, hraw, hpath'⟩ := h.exists_of_absorbed hget habsorbed
    obtain rfl : path' = path := Option.some.inj (hraw.symm.trans hpath)
    exact habsorbs y (List.mem_of_getElem? hget) habsorbed path' hpath'

/-- A line that was built, with no group hidden, has the commands it would have with all its paths
left in the template, exactly when no delimiter and no comma is escaped in a path that a group has
absorbed. -/
theorem commandOf_built_eq_iff {bound : List Term} (hbuild : buildLine t style line = .ok g)
    (hread : RawTemplate.read style line = .ok raw) (hbound : bound.length = g.groups.length)
    (hhidden : ∀ y ∈ g.groups, y.hidden = false) :
    g.commandOf bound = (moved style.delimiter raw g.groups []).commandOf bound ↔
      ∀ y ∈ g.groups, y.absorbed = true → ∀ path, y.externalPath = some path →
        Text.unescapeStructural style.delimiter path = path := by
  obtain ⟨raw', hbuilt⟩ := built_of_buildLine hbuild
  obtain rfl : raw' = raw := Except.ok.inj (hbuilt.read.symm.trans hread)
  obtain ⟨hmoved, hfits⟩ := hbuilt.eq_moved
  have hshown : ∀ x ∈ raw'.groups, x.hidden = false := by
    intro x hx
    obtain ⟨k, hk, rfl⟩ := List.getElem_of_mem hx
    have hk' : k < g.groups.length := by rwa [← hfits.length_eq]
    exact (hfits.get hk hk').hidden.symm.trans (hhidden _ (List.getElem_mem hk'))
  have hinherits : ∀ k ∈ absorbing 0 g.groups, raw'.Inherits k := by
    intro k hk
    obtain ⟨y, hy, habsorbed⟩ := mem_absorbing_zero.mp hk
    obtain ⟨x, path, -, -, hpath, -⟩ := hbuilt.exists_of_absorbed hy habsorbed
    exact inherits_of_read hread hpath
  have hbackref : ∀ k ∈ absorbing 0 g.groups, ∀ x, raw'.groups[k]? = some x →
      backref? x.terms = none := by
    intro k hk x hx
    obtain ⟨y, hy, habsorbed⟩ := mem_absorbing_zero.mp hk
    obtain ⟨x', path, hx', hterms, -⟩ := hbuilt.exists_of_absorbed hy habsorbed
    obtain rfl : x' = x := Option.some.inj (hx'.symm.trans hx)
    exact hterms
  have hiff := commandOf_moved_iff_taken (d := style.delimiter) hread hfits
    (hbound.trans hfits.length_eq.symm) hshown nodup_absorbing hinherits hbackref
  rw [← hmoved] at hiff
  exact hiff.trans ((raw'.unescape_taken_iff _ _).trans (hbuilt.forall_moved_iff _))

end Built

/-- A working directory with a file in a directory whose name has a backslash and an at sign. -/
def backslashTree : FileTree where
  entries := [(["a\\@b".toList], .dir), (["a\\@b".toList, ['x']], .file .empty)]
  workingDir := []

/-- Where a delimiter is escaped in the path of a search, building moves the backslash along, which
the literal would have lost. -/
theorem commandOf_moved_escaped : ∃ g raw,
    buildLine backslashTree {} "cat 'a\\@b/@files:*@'".toList = .ok g ∧
      RawTemplate.read {} "cat 'a\\@b/@files:*@'".toList = .ok raw ∧
      g = moved '@' raw g.groups [0] ∧
      g.commandOf [⟨['x'], true⟩] = "cat 'a\\@b/x'".toList ∧
      (moved '@' raw g.groups []).commandOf [⟨['x'], true⟩] = "cat 'a@b/x'".toList := by
  let g : Generator :=
    { template := ⟨[.literal "cat '".toList, .slot 0, .literal ['\'']]⟩
      groups := [{ terms := [⟨['x'], true⟩], externalPath := some "a\\@b/".toList, absorbed := true
                   quote := .single }] }
  let raw : RawTemplate :=
    { segments := [.literal "cat 'a\\@b/".toList, .slot 0, .literal ['\'']]
      groups := [⟨false, ["files:*".toList], some "a\\@b/".toList, .single, 10⟩] }
  have hbuild : buildLine backslashTree {} "cat 'a\\@b/@files:*@'".toList = .ok g := by cbv
  have hread : RawTemplate.read {} "cat 'a\\@b/@files:*@'".toList = .ok raw := by cbv
  exact ⟨g, raw, hbuild, hread, by decide, by decide, by decide⟩

end Generator

end Fanout
