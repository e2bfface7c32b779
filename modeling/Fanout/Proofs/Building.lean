import Fanout.Proofs.NestedLoop
import Fanout.Proofs.Slots
import Fanout.Proofs.Tokens

/-!
# What building makes

A generator that was built, traced back to the line it was built from, and its commands traced back
to the words of that line. The words come into sight as soon as no group is hidden and none takes
its path over: then each command is a row of the words with the texts of their slots.

* `Generator.Built`: what a successful build has read and expanded.
* `render_ofSegments`: without a hidden slot, a command is its pieces in order.
* `commandOf_build`: a command, word by word; `holds_build`: the groups of the words.
* `slotAt_build`: what a slot shows.
-/

namespace Fanout

/-! ## Expanding -/

/-- What has two steps and succeeds has succeeded in both. -/
theorem exists_of_bind_eq_ok {ε α β : Type} {x : Except ε α} {f : α → Except ε β} {b : β}
    (h : x >>= f = .ok b) : ∃ a, x = .ok a ∧ f a = .ok b := by
  cases x with
  | error e => exact absurd h (by simp [bind, Except.bind])
  | ok a => exact ⟨a, rfl, h⟩

/-- What is made of every element has been made of each. -/
theorem forall₂_of_mapM {α β : Type} {ε : Type} {f : α → Except ε β} :
    ∀ {xs : List α} {ys : List β}, xs.mapM f = .ok ys → List.Forall₂ (fun x y => f x = .ok y) xs ys
  | [], ys, h => by
    obtain rfl : [] = ys := Except.ok.inj h
    exact .nil
  | x :: xs, ys, h => by
    rw [List.mapM_cons] at h
    obtain ⟨y, hy, h⟩ := exists_of_bind_eq_ok h
    obtain ⟨rest, hrest, h⟩ := exists_of_bind_eq_ok h
    obtain rfl := Except.ok.inj h
    exact .cons hy (forall₂_of_mapM hrest)

/-- What a group is that was expanded. -/
theorem expandGroup_ok {t : FileTree} {d : Char} {raw : RawGroup} {g : Group}
    (h : expandGroup t d raw = .ok g) :
    ∃ es, expandTerms t d raw.externalPath raw.terms = .ok es ∧
      g = { hidden := raw.hidden
            terms := es.flatMap fun e => e.values.map (Term.mk · e.nodes)
            externalPath := raw.externalPath
            absorbed := es.any TermExpansion.absorbed
            quote := raw.quote
            backref := backref? raw.terms } := by
  obtain ⟨es, hes, hg⟩ := exists_of_bind_eq_ok h
  exact ⟨es, hes, (Except.ok.inj hg).symm⟩

/-- Groups are expanded one by one. -/
theorem forall₂_of_expandGroups {t : FileTree} {d : Char} : ∀ {raws : List RawGroup}
    {gs : List Group}, expandGroups t d raws = .ok gs →
      List.Forall₂ (fun raw g => expandGroup t d raw = .ok g) raws gs
  | [], gs, h => by
    obtain rfl : [] = gs := Except.ok.inj h
    exact List.Forall₂.nil
  | raw :: raws, gs, h => by
    rw [expandGroups] at h
    obtain ⟨g, hfirst, h⟩ := exists_of_bind_eq_ok h
    obtain ⟨rest, hrest, h⟩ := exists_of_bind_eq_ok h
    obtain rfl : g :: rest = gs := Except.ok.inj h
    exact List.Forall₂.cons hfirst (forall₂_of_expandGroups hrest)

theorem absorbing_eq_nil {gs : List Group} (h : ∀ g ∈ gs, g.absorbed = false) (k : Nat) :
    absorbing k gs = [] := by
  induction gs generalizing k with
  | nil => rfl
  | cons g gs ih =>
    rw [absorbing, h g List.mem_cons_self, if_neg (by decide)]
    exact ih (fun x hx => h x (List.mem_cons_of_mem _ hx)) (k + 1)

/-- Where no group takes its path over, the template keeps them all. -/
theorem absorbAll_of_not_absorbed {gs : List Group} (h : ∀ g ∈ gs, g.absorbed = false)
    (raw : RawTemplate) : raw.absorbAll gs = raw := by
  rw [RawTemplate.absorbAll, absorbing_eq_nil h]
  rfl

/-- What a successful build has read from the line, and what it made of it. -/
structure Generator.Built (t : FileTree) (style : GroupStyle) (line : Text) (g : Generator)
    (raw : RawTemplate) : Prop where
  read : RawTemplate.read style line = .ok raw
  groups : List.Forall₂ (fun x y => expandGroup t style.delimiter x = .ok y) raw.groups g.groups
  template : g.template = .ofSegments (raw.absorbAll g.groups).segments style.delimiter
  backrefs : Generator.checkBackrefs 0 g.groups = .ok ()

theorem Generator.built_of_buildLine {t : FileTree} {style : GroupStyle} {line : Text}
    {g : Generator} (h : buildLine t style line = .ok g) : ∃ raw, g.Built t style line raw := by
  rw [buildLine] at h
  obtain ⟨raw, hread, h⟩ := exists_of_bind_eq_ok h
  obtain ⟨gs, hgroups, h⟩ := exists_of_bind_eq_ok h
  obtain ⟨-, hchecked, rfl⟩ := Generator.ofGroups_eq_ok.mp (Stop.lift_eq_ok.mp h)
  exact ⟨raw, Stop.lift_eq_ok.mp hread, forall₂_of_expandGroups hgroups, rfl, hchecked⟩

/-- The slots of a generator are those of its groups, in order. -/
theorem Generator.Built.slots {t : FileTree} {style : GroupStyle} {line : Text} {g : Generator}
    {raw : RawTemplate} (h : g.Built t style line raw) :
    slotsOf g.template.segments = List.range g.groups.length := by
  rw [h.template, slotsOf_ofSegments, slotsOf_absorbAll, slotsOf_read h.read, h.groups.length_eq]

/-! ## Rendering -/

/-- Without a hidden slot there is nothing to trim. -/
theorem trimFirst_of_shown (trim : Text → Text) {ps : List Piece}
    (h : ∀ p ∈ ps, p.isHidden = false) : trimFirst trim false ps = ps := by
  induction ps with
  | nil => rfl
  | cons p ps ih =>
    have hp := h p List.mem_cons_self
    rw [trimFirst, hp, Bool.or_false, ih fun x hx => h x (List.mem_cons_of_mem _ hx)]
    simp

theorem trimStranded_of_shown {ps : List Piece} (h : ∀ p ∈ ps, p.isHidden = false) :
    trimStranded ps = ps := by
  have hreverse : ∀ p ∈ ps.reverse, p.isHidden = false :=
    fun p hp => h p (List.mem_reverse.mp hp)
  rw [trimStranded, trimLast, trimFirst_of_shown _ hreverse, List.reverse_reverse,
    trimFirst_of_shown _ h]

/-- Where every slot has a text, a command is its pieces in order. -/
theorem render_ofSegments {d : Char} {segments : List Segment} {slots : List (Option Text)}
    (h : ∀ k, .slot k ∈ segments → ∃ t, slots[k]? = some (some t)) :
    (Template.ofSegments segments d).render slots =
      filled d (fun k => (slots[k]?.getD none).getD []) segments := by
  have hshown : ∀ p ∈ (Template.ofSegments segments d).pieces slots, p.isHidden = false := by
    intro p hp
    simp only [Template.pieces, Template.ofSegments, List.map_map, List.mem_map,
      Function.comp_apply] at hp
    obtain ⟨s, hs, rfl⟩ := hp
    cases s with
    | literal t => rfl
    | slot k =>
      obtain ⟨t, ht⟩ := h k hs
      simp [ht, Piece.isHidden]
  rw [Template.render, trimStranded_of_shown hshown, Template.pieces, Template.ofSegments, filled,
    List.map_map, List.flatMap_map]
  refine List.flatMap_congr fun s _ => ?_
  cases s <;> rfl

/-! ## Slots -/

namespace Generator

/-- Each binding binds every group. -/
theorem length_of_mem_loop {gs : List Group} {bound terms : List Term} (h : terms ∈ loop bound gs) :
    terms.length = bound.length + gs.length := by
  induction gs generalizing bound with
  | nil =>
    obtain rfl := List.mem_singleton.mp h
    rfl
  | cons g gs ih =>
    have hnext {t : Term} (h : terms ∈ loop (bound ++ [t]) gs) :
        terms.length = bound.length + (g :: gs).length := by
      rw [ih h, List.length_append, List.length_singleton, List.length_cons]
      omega
    rw [loop] at h
    cases hb : g.backref with
    | some n =>
      cases hn : bound[n - 1]? with
      | some t =>
        simp only [hb, hn] at h
        exact hnext h
      | none => simp [hb, hn] at h
    | none =>
      simp only [hb, List.mem_flatMap] at h
      obtain ⟨t, -, ht⟩ := h
      exact hnext ht

/-- The text in slot number `k`. -/
def slotAt (g : Generator) (terms : List Term) (k : Nat) : Text :=
  ((g.slotTexts terms)[k]?.getD none).getD []

section Shown

variable {g : Generator} {terms : List Term} (hhidden : ∀ x ∈ g.groups, x.hidden = false)
  (habsorbed : ∀ x ∈ g.groups, x.absorbed = false)

include hhidden habsorbed

/-- A group that is neither hidden nor absorbed shows its term, quoted for the slot. -/
theorem slotTexts_getElem? {k : Nat} {x : Group} {term : Term} (hx : g.groups[k]? = some x)
    (hterm : terms[k]? = some term) :
    (g.slotTexts terms)[k]? = some (some (quoteTerm x.quote term.node term.value)) := by
  have hmem := List.mem_of_getElem? hx
  have htext : x.slotText term = some (quoteTerm x.quote term.node term.value) := by
    rw [Group.slotText, hhidden x hmem, if_neg (by decide), Group.shownPath, habsorbed x hmem,
      Bool.and_false, if_neg (by decide), List.nil_append]
  rw [slotTexts, List.getElem?_zipWith, hx, hterm, ← htext]

theorem slotAt_eq {k : Nat} {x : Group} {term : Term} (hx : g.groups[k]? = some x)
    (hterm : terms[k]? = some term) :
    g.slotAt terms k = quoteTerm x.quote term.node term.value := by
  rw [slotAt, slotTexts_getElem? hhidden habsorbed hx hterm]
  rfl

end Shown

/-! ## Rows of words -/

section Words

variable {t : FileTree} {style : GroupStyle} {tokens : List Text} {g : Generator}
  (hd : isDelimiter style.delimiter = true) (hbuild : build t style tokens = .ok g)
  (heven : ∀ token ∈ tokens, (Text.unescapedOffsets style.delimiter token).length % 2 = 0)

include hd hbuild heven

/-- What was read for a row of words is the words one by one. -/
theorem exists_built : ∃ raw, g.Built t style (ShellWord.join tokens) raw ∧
    (∀ slot, filled style.delimiter slot raw.segments =
      Text.join [' '] (spelledFrom style.delimiter slot 0 tokens)) ∧
    List.Forall₂ Holds (tokens.flatMap (held style.delimiter)) raw.groups := by
  obtain ⟨raw, hbuilt⟩ := built_of_buildLine hbuild
  obtain ⟨raw', hread, hspelled, hholds⟩ := read_join hd heven
  obtain rfl : raw = raw' := by
    have hboth := hbuilt.read.symm.trans hread
    exact Except.ok.inj hboth
  exact ⟨raw, hbuilt, hspelled, hholds⟩

/-- The groups are those that the words hold, in the order of the words. -/
theorem holds_build : ∃ raws, List.Forall₂ Holds (tokens.flatMap (held style.delimiter)) raws ∧
    List.Forall₂ (fun x y => expandGroup t style.delimiter x = .ok y) raws g.groups ∧
    checkBackrefs 0 g.groups = .ok () := by
  obtain ⟨raw, hbuilt, -, hholds⟩ := exists_built hd hbuild heven
  exact ⟨raw.groups, hholds, hbuilt.groups, hbuilt.backrefs⟩

variable (hhidden : ∀ x ∈ g.groups, x.hidden = false)
  (habsorbed : ∀ x ∈ g.groups, x.absorbed = false) {terms : List Term} (hterms : terms ∈ g.bindings)

include hhidden habsorbed hterms

/-- A command is the row of its words, each with the texts of its slots. -/
theorem commandOf_build : g.commandOf terms =
    Text.join [' '] (spelledFrom style.delimiter (g.slotAt terms) 0 tokens) := by
  obtain ⟨raw, hbuilt, hspelled, -⟩ := exists_built hd hbuild heven
  have hlength : terms.length = g.groups.length := by
    rw [length_of_mem_loop hterms, List.length_nil, Nat.zero_add]
  have hslot : ∀ k, .slot k ∈ raw.segments →
      ∃ text, (g.slotTexts terms)[k]? = some (some text) := by
    intro k hk
    have hlt : k < g.groups.length := by
      have hmem := mem_slotsOf.mpr hk
      rw [slotsOf_read hbuilt.read, List.mem_range] at hmem
      rwa [← hbuilt.groups.length_eq]
    have hterm : k < terms.length := by omega
    exact ⟨_, slotTexts_getElem? hhidden habsorbed (List.getElem?_eq_getElem hlt)
      (List.getElem?_eq_getElem hterm)⟩
  rw [commandOf, hbuilt.template, absorbAll_of_not_absorbed habsorbed, render_ofSegments hslot,
    ← hspelled]
  rfl

/-- Each slot shows the term of its group, in the quotes of the word that holds it. -/
theorem slotAt_build {i : Nat} {q : QuoteContext} {c : Text}
    (hi : (tokens.flatMap (held style.delimiter))[i]? = some (q, c)) :
    ∃ term, terms[i]? = some term ∧ g.slotAt terms i = quoteTerm q term.node term.value := by
  obtain ⟨raws, hholds, hgroups, -⟩ := holds_build hd hbuild heven
  obtain ⟨hheld, hp⟩ := List.getElem?_eq_some_iff.mp hi
  have hraw : i < raws.length := by rwa [← hholds.length_eq]
  have hgroup : i < g.groups.length := by rwa [← hgroups.length_eq]
  have hterm : i < terms.length := by
    rw [length_of_mem_loop hterms, List.length_nil]
    omega
  have hquote : g.groups[i].quote = q := by
    obtain ⟨es, -, hx⟩ := expandGroup_ok (hgroups.get hraw hgroup)
    have hfirst := (hholds.get hheld hraw).1
    simp only [List.get_eq_getElem] at hx hfirst
    rw [hx, hfirst, hp]
  refine ⟨terms[i], List.getElem?_eq_getElem hterm, ?_⟩
  rw [slotAt_eq hhidden habsorbed (List.getElem?_eq_getElem hgroup)
    (List.getElem?_eq_getElem hterm), hquote]

end Words

end Generator

end Fanout
