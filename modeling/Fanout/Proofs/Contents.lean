import Mathlib
import Fanout.Proofs.Building
import Fanout.Proofs.Ranges

/-!
# Contents stay contents

A line alone decides the template, the groups, and everything about a group but its terms. What
files and directories hold comes in as terms, each whole and as it is, and is never read again.

* `Yields`: the terms that one written term stands for, by what it asks for.
* `Group.Expands`: a group as its written form has it, with terms from a file tree.
* `Group.SameShape`: groups that differ in their terms at most.
* `sameShape_of_buildLine`: two file trees give the same template and groups of the same shapes.
-/

namespace Fanout

/-- The written term asks for a search. -/
def asksForNodes (d : Char) (raw : Text) : Bool :=
  match Directive.ofTerm (Text.unescapeStructural d raw) with
  | .nodes .. => true
  | _ => false

/-- A search behind the path takes it over, unless the path has wildcards. -/
def isInherited (external : Option Text) : Bool := external.isSome && !isTainted external

/-- The terms that a written term stands for. The lines of a file and the names of nodes are taken
as they are, one term for each. -/
inductive Yields (t : FileTree) (d : Char) (external : Option Text) (raw : Text) :
    List Term → Prop
  | range {first last : Text} {values : List Text}
      (asked : Directive.ofTerm (Text.unescapeStructural d raw) = .range first last)
      (found : expandRange first last = .ok values) :
      Yields t d external raw (values.map (⟨·, false⟩))
  | lines {path : Text} {values : List Text}
      (asked : Directive.ofTerm (Text.unescapeStructural d raw) = .lines path)
      (found : readLines t path = .ok values) :
      Yields t d external raw (values.map (⟨·, false⟩))
  | nodes {kind : NodeKind} {pattern : Text} {expansion : NodeExpansion}
      (asked : Directive.ofTerm (Text.unescapeStructural d raw) = .nodes kind pattern)
      (found : expandNodes t kind pattern external = .ok expansion) :
      Yields t d external raw (expansion.nodes.map (⟨·, true⟩))
  | literal (asked : Directive.ofTerm (Text.unescapeStructural d raw) = .literal) :
      Yields t d external raw [⟨Text.unescapeStructural d raw, false⟩]

namespace Group

/-- The group is as it is written. Its terms are those that its written terms stand for, one after
another. -/
structure Expands (t : FileTree) (d : Char) (raw : RawGroup) (g : Group) : Prop where
  hidden : g.hidden = raw.hidden
  quote : g.quote = raw.quote
  externalPath : g.externalPath = raw.externalPath
  absorbed : g.absorbed = (raw.terms.any (asksForNodes d) && isInherited raw.externalPath)
  backref : g.backref = backref? raw.terms
  terms : ∃ blocks, List.Forall₂ (Yields t d raw.externalPath) raw.terms blocks ∧
    g.terms = blocks.flatten

/-- The groups differ in their terms at most. -/
structure SameShape (g h : Group) : Prop where
  hidden : g.hidden = h.hidden
  quote : g.quote = h.quote
  externalPath : g.externalPath = h.externalPath
  absorbed : g.absorbed = h.absorbed
  backref : g.backref = h.backref

end Group

/-! ## One tree -/

theorem expandNodes_absorbed {t : FileTree} {kind : NodeKind} {pattern : Text}
    {external : Option Text} {found : NodeExpansion}
    (h : expandNodes t kind pattern external = .ok found) :
    found.absorbed = isInherited external := by
  unfold expandNodes at h
  simp only at h
  split at h
  · exact absurd h (by simp)
  · obtain ⟨ms, -, h⟩ := exists_of_bind_eq_ok h
    obtain ⟨nodes, -, h⟩ := exists_of_bind_eq_ok h
    obtain rfl := Except.ok.inj h
    rfl

/-- What a written term has become. -/
theorem yields_of_expandTerm {t : FileTree} {d : Char} {external : Option Text} {raw : Text}
    {e : TermExpansion} (h : expandTerm t d external raw = .ok e) :
    Yields t d external raw (e.values.map (Term.mk · e.nodes)) ∧
      e.absorbed = (asksForNodes d raw && isInherited external) := by
  unfold expandTerm at h
  unfold asksForNodes
  simp only at h
  cases hask : Directive.ofTerm (Text.unescapeStructural d raw) with
  | range first last =>
    rw [hask] at h
    obtain ⟨values, hvalues, h⟩ := exists_of_bind_eq_ok h
    obtain rfl := Except.ok.inj h
    exact ⟨.range hask hvalues, rfl⟩
  | lines path =>
    rw [hask] at h
    obtain ⟨values, hvalues, h⟩ := exists_of_bind_eq_ok h
    obtain rfl := Except.ok.inj h
    exact ⟨.lines hask (Stop.lift_eq_ok.mp hvalues), rfl⟩
  | nodes kind pattern =>
    rw [hask] at h
    obtain ⟨found, hfound, h⟩ := exists_of_bind_eq_ok h
    obtain rfl := Except.ok.inj h
    replace hfound := Stop.lift_eq_ok.mp hfound
    refine ⟨.nodes hask hfound, ?_⟩
    rw [Bool.true_and]
    exact expandNodes_absorbed hfound
  | literal =>
    rw [hask] at h
    obtain rfl := Except.ok.inj h
    exact ⟨.literal hask, rfl⟩

/-- Written terms have become their terms one by one. -/
theorem yields_of_expandTerms {t : FileTree} {d : Char} {external : Option Text} :
    ∀ {raws : List Text} {es : List TermExpansion}, expandTerms t d external raws = .ok es →
      List.Forall₂ (Yields t d external) raws
          (es.map fun e => e.values.map (Term.mk · e.nodes)) ∧
        es.any TermExpansion.absorbed = (raws.any (asksForNodes d) && isInherited external)
  | [], es, h => by
    obtain rfl : [] = es := Except.ok.inj h
    exact ⟨List.Forall₂.nil, rfl⟩
  | raw :: raws, es, h => by
    rw [expandTerms] at h
    obtain ⟨e, hfirst, h⟩ := exists_of_bind_eq_ok h
    obtain ⟨rest, hrest, h⟩ := exists_of_bind_eq_ok h
    obtain rfl : e :: rest = es := Except.ok.inj h
    obtain ⟨hyields, habsorbed⟩ := yields_of_expandTerm hfirst
    obtain ⟨hmore, hany⟩ := yields_of_expandTerms hrest
    refine ⟨List.Forall₂.cons hyields hmore, ?_⟩
    rw [List.any_cons, List.any_cons, habsorbed, hany, ← Bool.and_or_distrib_right]

theorem expands_of_expandGroup {t : FileTree} {d : Char} {raw : RawGroup} {g : Group}
    (h : expandGroup t d raw = .ok g) : g.Expands t d raw := by
  obtain ⟨es, hes, rfl⟩ := expandGroup_ok h
  obtain ⟨hyields, habsorbed⟩ := yields_of_expandTerms hes
  exact ⟨rfl, rfl, rfl, habsorbed, rfl, _, hyields, List.flatMap_def⟩

/-- A term that asks for a search has a colon behind the kind of nodes. -/
theorem colon_mem_of_asksForNodes {d : Char} {raw : Text} (h : asksForNodes d raw = true) :
    ':' ∈ raw := by
  have hterm : ':' ∈ Text.unescapeStructural d raw := by
    unfold asksForNodes Directive.ofTerm at h
    split at h
    · next hterm =>
      split at hterm
      · exact absurd hterm (by simp)
      · split at hterm
        · exact absurd hterm (by simp)
        · split at hterm
          · next hsplit =>
            obtain ⟨kind, -, hkind⟩ := List.exists_of_findSome?_eq_some hsplit
            obtain ⟨pattern, hafter, -⟩ := Option.map_eq_some_iff.mp hkind
            rw [Text.after?_eq_some_iff.mp hafter]
            simp
          · exact absurd hterm (by simp)
    · exact absurd h (by simp)
  exact (Text.unescape_sublist _ raw).subset hterm

/-- A group that absorbs its path has one, and refers to no other group. -/
theorem Group.Expands.of_absorbed {t : FileTree} {d : Char} {raw : RawGroup} {g : Group}
    (h : g.Expands t d raw) (habsorbed : g.absorbed = true) :
    raw.externalPath ≠ none ∧ backref? raw.terms = none := by
  rw [h.absorbed, Bool.and_eq_true] at habsorbed
  obtain ⟨hasks, hinherited⟩ := habsorbed
  constructor
  · intro hnone
    rw [hnone] at hinherited
    exact absurd hinherited (by decide)
  · obtain ⟨term, hterm, hask⟩ := List.any_eq_true.mp hasks
    unfold backref?
    split
    · next only hterms =>
      rw [hterms, List.mem_singleton] at hterm
      have hcolon := colon_mem_of_asksForNodes hask
      rw [hterm] at hcolon
      have hnot : Text.isDigits only = false := by
        rw [Bool.eq_false_iff]
        intro hdigits
        exact absurd ((Text.isDigits_iff.mp hdigits).isDigit ':' hcolon) (by decide)
      rw [if_neg (by simp [hnot])]
    · rfl

/-! ## Two trees -/

/-- The written form of a group decides its shape, whatever tree its terms come from. -/
theorem sameShape_of_expands {t₁ t₂ : FileTree} {d : Char} {raw : RawGroup} {g₁ g₂ : Group}
    (h₁ : g₁.Expands t₁ d raw) (h₂ : g₂.Expands t₂ d raw) : g₁.SameShape g₂ where
  hidden := h₁.hidden.trans h₂.hidden.symm
  quote := h₁.quote.trans h₂.quote.symm
  externalPath := h₁.externalPath.trans h₂.externalPath.symm
  absorbed := h₁.absorbed.trans h₂.absorbed.symm
  backref := h₁.backref.trans h₂.backref.symm

theorem forall₂_sameShape {t₁ t₂ : FileTree} {d : Char} {raws : List RawGroup}
    {gs₁ gs₂ : List Group} (h₁ : List.Forall₂ (Group.Expands t₁ d) raws gs₁)
    (h₂ : List.Forall₂ (Group.Expands t₂ d) raws gs₂) :
    List.Forall₂ Group.SameShape gs₁ gs₂ := by
  induction h₁ generalizing gs₂ with
  | nil =>
    obtain rfl := List.forall₂_nil_left_iff.mp h₂
    exact List.Forall₂.nil
  | cons hg _ ih =>
    obtain ⟨g, gs, hg', hgs, rfl⟩ := List.forall₂_cons_left_iff.mp h₂
    exact List.Forall₂.cons (sameShape_of_expands hg hg') (ih hgs)

theorem absorbing_of_sameShape {gs₁ gs₂ : List Group} (h : List.Forall₂ Group.SameShape gs₁ gs₂)
    (k : Nat) : absorbing k gs₁ = absorbing k gs₂ := by
  induction h generalizing k with
  | nil => rfl
  | cons hg _ ih => rw [absorbing, absorbing, hg.absorbed, ih]

theorem absorbAll_of_sameShape {gs₁ gs₂ : List Group} (h : List.Forall₂ Group.SameShape gs₁ gs₂)
    (raw : RawTemplate) : raw.absorbAll gs₁ = raw.absorbAll gs₂ := by
  rw [RawTemplate.absorbAll, RawTemplate.absorbAll, absorbing_of_sameShape h]

/-- The line alone decides the template and the shape of each group: two file trees for which it can
be built give the same, and only terms differ. In both, a group is as it is written and its terms are
the contents that were found, each line and each name one term, with no character changed. -/
theorem sameShape_of_buildLine {t₁ t₂ : FileTree} {style : GroupStyle} {line : Text}
    {g₁ g₂ : Generator} (h₁ : buildLine t₁ style line = .ok g₁)
    (h₂ : buildLine t₂ style line = .ok g₂) :
    g₁.template = g₂.template ∧ g₁.groups.length = g₂.groups.length ∧
      List.Forall₂ Group.SameShape g₁.groups g₂.groups ∧
      ∃ raw, RawTemplate.read style line = .ok raw ∧
        List.Forall₂ (Group.Expands t₁ style.delimiter) raw.groups g₁.groups ∧
        List.Forall₂ (Group.Expands t₂ style.delimiter) raw.groups g₂.groups := by
  obtain ⟨raw, hbuilt₁⟩ := Generator.built_of_buildLine h₁
  obtain ⟨raw', hbuilt₂⟩ := Generator.built_of_buildLine h₂
  obtain rfl : raw = raw' := Except.ok.inj (hbuilt₁.read.symm.trans hbuilt₂.read)
  have hexpands₁ := hbuilt₁.groups.imp fun _ _ => expands_of_expandGroup
  have hexpands₂ := hbuilt₂.groups.imp fun _ _ => expands_of_expandGroup
  have hshape := forall₂_sameShape hexpands₁ hexpands₂
  refine ⟨?_, hshape.length_eq, hshape, raw, hbuilt₁.read, hexpands₁, hexpands₂⟩
  rw [hbuilt₁.template, hbuilt₂.template, absorbAll_of_sameShape hshape]

/-- A working directory with a file of lines, and a directory with a file. -/
def treeOf (lines name : Text) : FileTree where
  entries := [([['f']], .file (Text.toUtf8 lines)), ([['d']], .dir), ([['d'], name], .file .empty)]
  workingDir := []

/-- What a line that asks for the lines, the names and the first group again is built to. -/
def generatorOf (lines : List Text) (name : Text) : Generator where
  template := ⟨[.literal "cat ".toList, .slot 0, .literal [' '], .slot 1, .literal [' '], .slot 2,
    .literal []]⟩
  groups :=
    [{ terms := lines.map (⟨·, false⟩) },
      { terms := [⟨name, true⟩], externalPath := some "d/".toList, absorbed := true },
      { terms := [⟨['1'], false⟩], backref := some 1 }]

/-- Lines and names that would mean something in a template mean nothing. -/
theorem sameShape_generatorOf :
    buildLine (treeOf "1\n".toList ['x']) {} "cat @lines:f@ d/@files:*@ @1@".toList =
        .ok (generatorOf [['1']] ['x']) ∧
      buildLine (treeOf "-:2\n@1@,\\'\n".toList "@2@,".toList) {}
          "cat @lines:f@ d/@files:*@ @1@".toList =
        .ok (generatorOf ["-:2".toList, "@1@,\\'".toList] "@2@,".toList) ∧
      List.Forall₂ Group.SameShape (generatorOf [['1']] ['x']).groups
        (generatorOf ["-:2".toList, "@1@,\\'".toList] "@2@,".toList).groups := by
  -- the search is run by equations of core functions, which stand in different parts of Mathlib
  have h₁ : buildLine (treeOf "1\n".toList ['x']) {} "cat @lines:f@ d/@files:*@ @1@".toList =
      .ok (generatorOf [['1']] ['x']) := by cbv
  have h₂ : buildLine (treeOf "-:2\n@1@,\\'\n".toList "@2@,".toList) {}
      "cat @lines:f@ d/@files:*@ @1@".toList =
        .ok (generatorOf ["-:2".toList, "@1@,\\'".toList] "@2@,".toList) := by cbv
  exact ⟨h₁, h₂, (sameShape_of_buildLine h₁ h₂).2.2.1⟩

end Fanout
