import Fanout.Proofs.Building
import Fanout.Proofs.Rendering

/-!
# Places that an odometer looks up

The commands of a generator are made by looking things up by number: the term under the cursor of a
group, the term that the target of a back reference took, the text of a slot, the pieces at either
end of a command. Wherever an odometer can come to, each of these is there, until it is done.

* `Odometer.Reachable`: the positions that calls lead to.
* `Odometer.cursors`: how many terms of each group lie behind its wheel.
* `Odometer.Stands`: a wheel is what its cursor says. `stands_turn` keeps it so.
* `Generator.command?`: the command, made from the cursors and refused when anything is missing.
* `safe_of_reachable`: nothing is.
-/

namespace Fanout

namespace Odometer

/-! ## Positions -/

/-- The positions that calls lead to, from the first one on. -/
inductive Reachable (g : Generator) : Odometer → Prop
  | start : Reachable g (start g)
  | next {o o' : Odometer} {c : Text} (before : Reachable g o) (called : o.next? g = some (c, o')) :
      Reachable g o'

/-- For each group, how many of its terms lie behind the current one. -/
def cursors (gs : List Group) (ws : List (List Term)) : List Nat :=
  List.zipWith (fun x w => x.terms.length - w.length) gs ws

theorem cursors_cons (x : Group) (w : List Term) (gs : List Group) (ws : List (List Term)) :
    cursors (x :: gs) (w :: ws) = (x.terms.length - w.length) :: cursors gs ws := rfl

/-- The wheel of a group holds its terms from some place on: one on a term when the group branches,
and the first when it refers back. -/
structure Stands (x : Group) (w : List Term) : Prop where
  suffix : w <:+ x.terms
  branching : x.branches = true → w ≠ []
  still : x.branches = false → w = x.terms

theorem Stands.terms_ne_nil {x : Group} {w : List Term} (h : Stands x w)
    (hb : x.branches = true) : x.terms ≠ [] := by
  intro hnil
  apply h.branching hb
  rw [← List.suffix_nil, ← hnil]
  exact h.suffix

theorem stands_terms {x : Group} (h : x.branches = true → x.terms ≠ []) : Stands x x.terms :=
  ⟨List.suffix_rfl, h, fun _ => rfl⟩

/-- A wheel that turns when those behind it have started over belongs to a group that branches. -/
theorem branches_of_turns {x : Group} {restarted : Bool}
    (h : ¬(!restarted || !x.branches) = true) : x.branches = true := by
  by_contra hb
  simp [hb] at h

theorem stands_turn {gs : List Group} {ws : List (List Term)} (h : List.Forall₂ Stands gs ws) :
    List.Forall₂ Stands gs (turn gs ws).1 := by
  induction h with
  | nil => exact .nil
  | @cons x w gs ws hx _ ih =>
    rw [turn]
    simp only
    split
    · exact .cons hx ih
    · next hturns =>
      have hbranches := branches_of_turns hturns
      split
      · exact .cons (stands_terms fun hb => hx.terms_ne_nil hb) ih
      · next hahead =>
        refine .cons ⟨?_, fun _ => hahead, fun hb => ?_⟩ ih
        · exact (List.tail_suffix w).trans hx.suffix
        · rw [hbranches] at hb
          exact Bool.noConfusion hb

variable {g : Generator} {o : Odometer}

/-- The wheels stand right in every position that is not behind the last command. -/
theorem Reachable.stands (hs : g.SeesEmpty) (h : Reachable g o) (hdone : o.done = false) :
    List.Forall₂ Stands g.groups o.wheels := by
  induction h with
  | start =>
    have hne : ¬g.HasEmpty := by
      intro hempty
      have hisEmpty := (Generator.isEmpty_iff hs).mpr hempty
      rw [Odometer.start, hisEmpty] at hdone
      exact Bool.noConfusion hdone
    rw [Odometer.start, List.forall₂_map_right_iff, List.forall₂_same]
    intro x hx
    apply stands_terms
    intro hb hnil
    exact hne ⟨x, hx, hb, hnil⟩
  | @next o o' c before called ih =>
    rw [next?] at called
    split at called
    · exact absurd called (by simp)
    · next hnot =>
      obtain ⟨-, rfl⟩ := Prod.mk.inj (Option.some.inj called)
      exact stands_turn (ih (Bool.eq_false_iff.mpr hnot))

/-! ## Cursors -/

theorem length_cursors {gs : List Group} {ws : List (List Term)} (h : List.Forall₂ Stands gs ws) :
    (cursors gs ws).length = gs.length := by
  rw [cursors, List.length_zipWith, h.length_eq, Nat.min_self]

/-- A cursor says where its wheel is, and points at a term. -/
theorem Stands.cursor {x : Group} {w : List Term} (h : Stands x w) :
    w = x.terms.drop (x.terms.length - w.length) ∧
      (x.branches = true → x.terms.length - w.length < x.terms.length) ∧
      (x.branches = false → x.terms.length - w.length = 0) := by
  refine ⟨List.suffix_iff_eq_drop.mp h.suffix, fun hb => ?_, fun hb => ?_⟩
  · have hpos := List.length_pos_iff.mpr (h.branching hb)
    have hle := h.suffix.length_le
    omega
  · rw [h.still hb, Nat.sub_self]

theorem cursors_terms (gs : List Group) :
    cursors gs (gs.map Group.terms) = List.replicate gs.length 0 := by
  induction gs with
  | nil => rfl
  | cons x gs ih =>
    rw [List.map_cons, cursors_cons, ih, Nat.sub_self, List.length_cons, List.replicate_succ]

/-- The cursors after one step, and whether all of them started over. -/
def turnCursors : List Group → List Nat → List Nat × Bool
  | x :: xs, k :: ks =>
    let (rest, restarted) := turnCursors xs ks
    if !restarted || !x.branches then (k :: rest, restarted)
    else if k + 1 < x.terms.length then ((k + 1) :: rest, false)
    else (0 :: rest, true)
  | _, _ => ([], true)

/-- The wheels turn as their cursors count. -/
theorem turnCursors_cursors {gs : List Group} {ws : List (List Term)}
    (h : List.Forall₂ Stands gs ws) :
    turnCursors gs (cursors gs ws) = (cursors gs (turn gs ws).1, (turn gs ws).2) := by
  induction h with
  | nil => rfl
  | @cons x w gs ws hx _ ih =>
    rw [cursors_cons, turnCursors, ih, turn]
    simp only
    by_cases hstill : (!(turn gs ws).2 || !x.branches) = true
    · rw [if_pos hstill, if_pos hstill, cursors_cons]
    · have hbranches := branches_of_turns hstill
      have hle := hx.suffix.length_le
      obtain ⟨t, w', rfl⟩ := List.exists_cons_of_ne_nil (hx.branching hbranches)
      rw [List.length_cons] at hle
      rw [if_neg hstill, if_neg hstill, List.length_cons, List.tail_cons]
      cases w' with
      | nil =>
        have hlast : ¬x.terms.length - (0 + 1) + 1 < x.terms.length := by omega
        rw [List.length_nil, if_neg hlast, cursors_cons, Nat.sub_self]
      | cons u w'' =>
        rw [List.length_cons] at hle ⊢
        have hmore : x.terms.length - (w''.length + 1 + 1) + 1 < x.terms.length := by omega
        have hnext : x.terms.length - (w''.length + 1 + 1) + 1 =
            x.terms.length - (w''.length + 1) := by omega
        rw [if_pos hmore, cursors_cons, List.length_cons, hnext]

end Odometer

/-! ## Looking up -/

namespace Template

/-- The pieces of a template, when every slot has a place among the texts. -/
def pieces? (t : Template) (slots : List (Option Text)) : Option (List Piece) :=
  t.segments.mapM fun
    | .literal text => some (.literal text)
    | .slot k => slots[k]?.map .slot

theorem pieces?_eq {t : Template} {slots : List (Option Text)}
    (h : ∀ k ∈ slotsOf t.segments, k < slots.length) : t.pieces? slots = some (t.pieces slots) := by
  unfold pieces? pieces
  generalize t.segments = ss at h
  induction ss with
  | nil => rfl
  | cons s ss ih =>
    have hrest := ih fun k hk => h k (mem_slotsOf.mpr (List.mem_cons_of_mem s (mem_slotsOf.mp hk)))
    rw [List.mapM_cons, hrest]
    cases s with
    | literal text => rfl
    | slot k =>
      have hk : k < slots.length := h k (mem_slotsOf.mpr List.mem_cons_self)
      simp [List.getElem?_eq_getElem hk]

end Template

namespace Generator

/-- The terms that the groups take when their cursors stand so, if all of them can be looked up. -/
def take? (taken : List Term) : List Group → List Nat → Option (List Term)
  | x :: xs, k :: ks => do
    let term ← match x.backref with
      | some n => taken[n - 1]?
      | none => x.terms[k]?
    take? (taken ++ [term]) xs ks
  | [], [] => some taken
  | _, _ => none

/-- The command that the cursors point at, if everything in it can be looked up. -/
def command? (g : Generator) (cursors : List Nat) : Option Text := do
  let terms ← take? [] g.groups cursors
  let pieces ← g.template.pieces? (g.slotTexts terms)
  trimEnds? pieces

theorem take?_cursors {taken : List Term} {xs : List Group} {ws : List (List Term)}
    (h : List.Forall₂ Odometer.Stands xs ws) (hc : checkBackrefs taken.length xs = .ok ()) :
    take? taken xs (Odometer.cursors xs ws) = some (take taken xs ws) := by
  induction h generalizing taken with
  | nil => rfl
  | @cons x w xs ws hx _ ih =>
    obtain ⟨hx', hxs⟩ := checkBackrefs_cons.mp hc
    have hnext (t : Term) : checkBackrefs (taken ++ [t]).length xs = .ok () := by simpa using hxs
    rw [Odometer.cursors_cons, take?, take]
    cases hb : x.backref with
    | some n =>
      obtain ⟨t, ht⟩ := exists_bound hx' hb rfl
      simp only [ht]
      exact ih (hnext t)
    | none =>
      have hbranches : x.branches = true := by simp [Group.branches, hb]
      obtain ⟨hdrop, -, -⟩ := hx.cursor
      obtain ⟨t, w', rfl⟩ := List.exists_cons_of_ne_nil (hx.branching hbranches)
      have ht : x.terms[x.terms.length - (t :: w').length]? = some t := by
        rw [← List.head?_drop, ← hdrop]
        rfl
      simp only [ht]
      exact ih (hnext t)

theorem length_take {taken : List Term} {xs : List Group} {ws : List (List Term)}
    (h : xs.length = ws.length) : (take taken xs ws).length = taken.length + xs.length := by
  induction xs generalizing taken ws with
  | nil => cases ws <;> rfl
  | cons x xs ih =>
    cases ws with
    | nil => simp at h
    | cons w ws =>
      rw [take, ih (by simpa using h), List.length_append, List.length_singleton, List.length_cons]
      omega

/-- Where all wheels stand right, the command is made without a miss. -/
theorem command?_cursors {g : Generator} {ws : List (List Term)}
    (hslots : slotsOf g.template.segments = List.range g.groups.length)
    (hc : checkBackrefs 0 g.groups = .ok ()) (h : List.Forall₂ Odometer.Stands g.groups ws) :
    g.command? (Odometer.cursors g.groups ws) = some (g.command ws) := by
  have hlength : (g.slotTexts (take [] g.groups ws)).length = g.groups.length := by
    rw [slotTexts, List.length_zipWith, length_take h.length_eq]
    simp
  have hpieces : g.template.pieces? (g.slotTexts (take [] g.groups ws)) =
      some (g.template.pieces (g.slotTexts (take [] g.groups ws))) := by
    apply Template.pieces?_eq
    intro k hk
    rw [hslots, List.mem_range] at hk
    omega
  have hterms : take? [] g.groups (Odometer.cursors g.groups ws) = some (take [] g.groups ws) :=
    take?_cursors h hc
  unfold command?
  rw [hterms, Option.bind_eq_bind, Option.bind_some, hpieces]
  exact trimEnds?_eq _

end Generator

/-! ## Runs -/

/-- What holds of a position with commands left: each wheel is where its cursor says, on a term of a
group that branches and on the first one of a back reference; the next call gives the command that
the cursors point at, with every place it looks up there; and it moves the cursors on. -/
structure Odometer.InRange (g : Generator) (o : Odometer) : Prop where
  length : (cursors g.groups o.wheels).length = g.groups.length
  cursor : ∀ (i : Nat) (x : Group) (k : Nat), g.groups[i]? = some x →
    (cursors g.groups o.wheels)[i]? = some k →
      o.wheels[i]? = some (x.terms.drop k) ∧ (x.backref = none → k < x.terms.length) ∧
        (x.backref ≠ none → k = 0)
  called : ∃ c, g.command? (cursors g.groups o.wheels) = some c ∧
    o.next? g = some (c, o.advance g)
  advance : turnCursors g.groups (cursors g.groups o.wheels) =
    (cursors g.groups (o.advance g).wheels, (o.advance g).done)

/-- A generator that was built numbers its slots in order, one for each group, and every back
reference in it names a group before it. All cursors start at zero, and wherever calls lead while
there are commands left, nothing is looked up in a place that is not there. -/
theorem safe_of_reachable {t : FileTree} {style : GroupStyle} {line : Text} {g : Generator}
    (h : buildLine t style line = .ok g) (hs : g.SeesEmpty) :
    slotsOf g.template.segments = List.range g.groups.length ∧
      (∀ (i : Nat) (x : Group) (n : Nat), g.groups[i]? = some x → x.backref = some n →
        1 ≤ n ∧ n ≤ i) ∧
      Odometer.cursors g.groups (Odometer.start g).wheels = List.replicate g.groups.length 0 ∧
      ∀ o, Odometer.Reachable g o → o.done = false → o.InRange g := by
  obtain ⟨raw, hbuilt⟩ := Generator.built_of_buildLine h
  refine ⟨hbuilt.slots, ?_, Odometer.cursors_terms g.groups, ?_⟩
  · intro i x n hx hn
    have hall := Generator.checkBackrefs_eq_ok.mp hbuilt.backrefs i n (by simp [hx, hn])
    omega
  · intro o ho hdone
    have hstands := ho.stands hs hdone
    refine ⟨Odometer.length_cursors hstands, ?_, ?_, Odometer.turnCursors_cursors hstands⟩
    · intro i x k hx hk
      obtain ⟨hlt, rfl⟩ := List.getElem?_eq_some_iff.mp hx
      have hlt' : i < o.wheels.length := by rwa [← hstands.length_eq]
      have hw : o.wheels[i]? = some o.wheels[i] := List.getElem?_eq_getElem hlt'
      obtain ⟨hdrop, hbranching, hstill⟩ := (hstands.get hlt hlt').cursor
      rw [Odometer.cursors, List.getElem?_zipWith, hx, hw] at hk
      obtain rfl := Option.some.inj hk
      refine ⟨hw.trans (congrArg some hdrop), fun hb => ?_, fun hb => ?_⟩
      · exact hbranching (by simp [Group.branches, hb])
      · exact hstill (by simpa [Group.branches, Option.isSome_iff_ne_none] using hb)
    · refine ⟨_, Generator.command?_cursors hbuilt.slots hbuilt.backrefs hstands, ?_⟩
      rw [Odometer.next?, hdone]
      rfl

/-- What a line with a hidden group and a back reference is built to. -/
def referring : Generator where
  template := ⟨[.literal "cp ".toList, .slot 0, .literal [' '], .slot 1, .literal [' '], .slot 2,
    .literal []]⟩
  groups :=
    [{ terms := [⟨['a'], false⟩, ⟨['b'], false⟩] },
      { terms := [⟨['1'], false⟩], backref := some 1 },
      { hidden := true, terms := [⟨['x'], false⟩, ⟨['y'], false⟩] }]

/-- The last group has started over once, so the first one stands on its second term. -/
theorem safe_of_reachable_referring :
    buildLine .empty {} "cp @a,b@ @1@ @-:x,y@".toList = .ok referring ∧ referring.SeesEmpty ∧
      ∃ o, Odometer.Reachable referring o ∧ o.done = false ∧
        Odometer.cursors referring.groups o.wheels = [1, 0, 0] ∧ o.InRange referring := by
  have hbuild : buildLine .empty {} "cp @a,b@ @1@ @-:x,y@".toList = .ok referring := by decide +kernel
  have hs : referring.SeesEmpty := by decide
  have hreachable : Odometer.Reachable referring
      (((Odometer.start referring).advance referring).advance referring) :=
    .next (.next .start rfl) rfl
  obtain ⟨-, -, -, hsafe⟩ := safe_of_reachable hbuild hs
  exact ⟨hbuild, hs, _, hreachable, by decide, by decide, hsafe _ hreachable (by decide)⟩

end Fanout
