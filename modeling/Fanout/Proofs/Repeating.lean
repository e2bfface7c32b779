import Fanout.Proofs.Fidelity
import Fanout.Proofs.Requoting

/-!
# Repeating a value outside quotes

A group in one word and a back reference to it in another are bound to the same value, but each
writes it for its own word. A back reference alone in its word stands outside quotes, where nothing
but quotes is escaped: the shell reads the value again from there, and it does not always come back.

* `LiteralBody`: the body of a group whose terms are literals.
* `repeatWords`: a command with a group and a back reference to it.
* `words_repeated`: what the program gets, and for which values it gets the same one twice.
-/

namespace Fanout

/-- The body of a group with literals for terms, none of them empty. -/
structure LiteralBody (b : Text) : Prop where
  closed : Text.unescapedOffsets '@' b = []
  ends : Text.trailingBackslashes b % 2 = 0
  terms : ∀ term ∈ Text.splitUnescaped ',' b,
    term ≠ [] ∧ Directive.ofTerm (Text.unescapeStructural '@' term) = .literal

/-- A command with the group, and a back reference to it in a word of its own. -/
def repeatWords (b : Text) : List Text := ["cmd".toList, '@' :: b ++ ['@'], "@1@".toList]

/-! ## Literals -/

/-- Literals stand for themselves. -/
theorem expandTerms_of_literal {t : FileTree} {d : Char} {external : Option Text} {raws : List Text}
    (h : ∀ raw ∈ raws, Directive.ofTerm (Text.unescapeStructural d raw) = .literal) :
    expandTerms t d external raws =
      .ok (raws.map fun raw => { values := [Text.unescapeStructural d raw] }) := by
  induction raws with
  | nil => rfl
  | cons raw raws ih =>
    have hterm : expandTerm t d external raw =
        .ok { values := [Text.unescapeStructural d raw] } := by
      simp only [expandTerm, h raw List.mem_cons_self]
    rw [expandTerms, hterm, ih fun x hx => h x (List.mem_cons_of_mem _ hx)]
    rfl

/-- A group of literals has their texts for terms, and absorbs nothing. -/
theorem expandGroup_of_literal {t : FileTree} {d : Char} {raw : RawGroup} {g : Group}
    (hg : expandGroup t d raw = .ok g)
    (h : ∀ term ∈ raw.terms, Directive.ofTerm (Text.unescapeStructural d term) = .literal) :
    g.terms = raw.terms.map (fun term => ⟨Text.unescapeStructural d term, false⟩) ∧
      g.absorbed = false := by
  obtain ⟨es, hes, rfl⟩ := expandGroup_ok hg
  rw [expandTerms_of_literal h] at hes
  obtain rfl := Except.ok.inj hes
  refine ⟨?_, ?_⟩
  · simp [List.flatMap_map, ← List.map_eq_flatMap]
  · simp

namespace LiteralBody

variable {b : Text} (hb : LiteralBody b)

include hb

theorem dangles_body : Text.dangles false b = false := by
  rw [Text.dangles_eq_odd, hb.ends]
  rfl

/-- The word with the group is its body between two delimiters. -/
theorem splitUnescaped_word : Text.splitUnescaped '@' ('@' :: b ++ ['@']) = [[], b, []] := by
  have hlacks : Text.Lacks '@' false b := Text.lacks_of_unescapedOffsets (by decide) hb.closed
  have hword : '@' :: b ++ ['@'] = Text.join ['@'] [[], b, []] := by simp
  rw [hword]
  exact Text.splitUnescaped_join (by decide)
    ⟨True.intro, rfl, hlacks, hb.dangles_body, True.intro⟩

theorem even_repeatWords : ∀ token ∈ repeatWords b,
    (Text.unescapedOffsets '@' token).length % 2 = 0 := by
  intro token htoken
  simp only [repeatWords, List.mem_cons, List.not_mem_nil, or_false] at htoken
  obtain rfl | rfl | rfl := htoken
  · decide
  · have hlength := Text.length_unescapedOffsets (d := '@') (by decide) ('@' :: b ++ ['@'])
    rw [hb.splitUnescaped_word] at hlength
    simp only [List.length_cons, List.length_nil] at hlength
    omega
  · decide

theorem groupCount_word : groupCount '@' ('@' :: b ++ ['@']) = 1 := by
  have heven := hb.even_repeatWords ('@' :: b ++ ['@']) (by simp [repeatWords])
  rw [← length_splitUnescaped_half (by decide) heven, hb.splitUnescaped_word]
  simp

/-- The words hold the group, and behind it the back reference. -/
theorem held_repeatWords : (repeatWords b).flatMap (held '@') =
    [(contextOf ('@' :: b ++ ['@']), b), (.plain, ['1'])] := by
  have hcmd : held '@' "cmd".toList = [] := by decide
  have hback : held '@' "@1@".toList = [(.plain, ['1'])] := by decide
  rw [repeatWords, List.flatMap_cons, List.flatMap_cons, List.flatMap_cons, hcmd, hback, held,
    hb.splitUnescaped_word]
  rfl

/-- A value of the group is no empty word, and escapes nothing behind it. -/
theorem ne_nil_and_dangles {term : Text} (hterm : term ∈ Text.splitUnescaped ',' b) :
    Text.unescapeStructural '@' term ≠ [] ∧
      Text.dangles false (Text.unescapeStructural '@' term) = false := by
  have hstretches := Text.stretches_splitUnescaped (d := ',') (by decide) b
  have hjoin := Text.join_splitUnescaped (d := ',') (by decide) b
  refine ⟨Text.unescape_ne_nil (hb.terms term hterm).1, Text.dangles_unescape (by decide) ?_⟩
  refine Text.dangles_of_mem_stretches (d := ',') (by decide) hstretches ?_ hterm
  rw [hjoin, hb.dangles_body]

/-- The group comes to the program as the value it is bound to. -/
theorem spells_word {term : Text} (hterm : term ∈ Text.splitUnescaped ',' b) {slot : Nat → Text}
    (hslot : slot 0 = quoteTerm (contextOf ('@' :: b ++ ['@'])) false
      (Text.unescapeStructural '@' term)) :
    ShellWord.Spells (spelled '@' slot 0 ('@' :: b ++ ['@']))
      [Text.unescapeStructural '@' term] := by
  let v := Text.unescapeStructural '@' term
  have hd : isDelimiter '@' = true := by decide
  have heven := hb.even_repeatWords ('@' :: b ++ ['@']) (by simp [repeatWords])
  have hdelivered : delivered '@' [v] 0 ('@' :: b ++ ['@']) = v := by
    rw [delivered_eq_filled hd heven, hb.splitUnescaped_word]
    simp [segmentsFrom, filled, Text.unescapeStructural, Text.unescape]
  have hfirst : ∀ i < groupCount '@' ('@' :: b ++ ['@']), i = 0 := by
    intro i hi
    rw [hb.groupCount_word] at hi
    omega
  cases hbare : ShellWord.isBare ('@' :: b ++ ['@']) with
  | false =>
    have hcontext : contextOf ('@' :: b ++ ['@']) = .single := by
      rw [contextOf, hbare, if_neg (by decide)]
    rw [hcontext] at hslot
    have hspells : ShellWord.Spells (spelled '@' slot 0 ('@' :: b ++ ['@']))
        [delivered '@' [v] 0 ('@' :: b ++ ['@'])] := by
      refine spells_spelled_quoted hd heven hbare fun i hi => ?_
      rw [hfirst i hi]
      exact ⟨false, hslot⟩
    rwa [hdelivered] at hspells
  | true =>
    have hcontext : contextOf ('@' :: b ++ ['@']) = .plain := if_pos hbare
    rw [hcontext] at hslot
    have hspecial : ∀ c ∈ term, c ∉ ShellWord.specials := fun c hc =>
      ShellWord.not_special_of_isBare hbare (by
        simp [mem_of_mem_splitUnescaped (by decide) hterm hc])
    have hv : v = term := Text.unescape_of_not_mem fun h => hspecial _ h (by decide)
    have hharmless : Harmless v := by
      rw [hv]
      exact harmless_of_not_special hspecial
    have hspells : ShellWord.Spells (spelled '@' slot 0 ('@' :: b ++ ['@']))
        (if delivered '@' [v] 0 ('@' :: b ++ ['@']) = [] then []
          else [delivered '@' [v] 0 ('@' :: b ++ ['@'])]) := by
      refine spells_spelled_bare hd heven hbare (fun i hi => ?_) fun i hi => ?_
      · rw [hfirst i hi]
        exact hharmless
      · rw [hfirst i hi]
        exact ⟨false, hslot⟩
    rwa [hdelivered, if_neg (hb.ne_nil_and_dangles hterm).1] at hspells

/-- The back reference is alone in its word. -/
theorem spelledFrom_repeatWords (slot : Nat → Text) : spelledFrom '@' slot 0 (repeatWords b) =
    ["cmd".toList, spelled '@' slot 0 ('@' :: b ++ ['@']), slot 1] := by
  have hcmd : spelled '@' slot 0 "cmd".toList = "cmd".toList := rfl
  have hnone : groupCount '@' "cmd".toList = 0 := by decide
  have hback : spelled '@' slot 1 "@1@".toList = slot 1 ++ [] := rfl
  rw [repeatWords, spelledFrom, spelledFrom, spelledFrom, spelledFrom, hcmd, hnone,
    hb.groupCount_word, hback, List.append_nil]

/-- A shell reads the value of the group as it is, and then what comes of it outside quotes. -/
theorem split_repeatWords {term : Text} (hterm : term ∈ Text.splitUnescaped ',' b)
    {slot : Nat → Text}
    (hgroup : slot 0 = quoteTerm (contextOf ('@' :: b ++ ['@'])) false
      (Text.unescapeStructural '@' term))
    (hback : slot 1 = quoteTerm .plain false (Text.unescapeStructural '@' term)) :
    ShellWord.split (Text.join [' '] (spelledFrom '@' slot 0 (repeatWords b))) =
      (ShellWord.split (escapeTerm .plain (Text.unescapeStructural '@' term))).map
        (["cmd".toList, Text.unescapeStructural '@' term] ++ ·) := by
  have hcmd : ShellWord.Spells "cmd".toList ["cmd".toList] := rfl
  have hword := hb.spells_word hterm hgroup
  rw [hb.spelledFrom_repeatWords, Text.join_cons_cons, Text.join_cons_cons, Text.join_singleton,
    List.singleton_append, List.singleton_append, hcmd.split_append_space, hword.split_append_space,
    hback, Option.map_map]
  rfl

/-- What building makes of the words: a group of literals, and a back reference to it. -/
theorem groups_build {t : FileTree} {style : GroupStyle} {g : Generator}
    (hd : style.delimiter = '@') (hbuild : build t style (repeatWords b) = .ok g)
    (hhidden : ∀ x ∈ g.groups, x.hidden = false) :
    Generator.checkBackrefs 0 g.groups = .ok () ∧ (∀ x ∈ g.groups, x.absorbed = false) ∧
      g.bindings = (Text.splitUnescaped ',' b).map fun term =>
        List.replicate 2 ⟨Text.unescapeStructural '@' term, false⟩ := by
  have hholds := Generator.holds_build (by rw [hd]; rfl) hbuild
    (by rw [hd]; exact hb.even_repeatWords)
  rw [hd, hb.held_repeatWords] at hholds
  obtain ⟨raws, hraws, hgroups, hchecked⟩ := hholds
  obtain ⟨r₀, _, hr₀, hrest, rfl⟩ := List.forall₂_cons_left_iff.mp hraws
  obtain ⟨r₁, _, hr₁, hnil, rfl⟩ := List.forall₂_cons_left_iff.mp hrest
  obtain rfl := List.forall₂_nil_left_iff.mp hnil
  obtain ⟨g₀, _, hg₀, hrest, hgs⟩ := List.forall₂_cons_left_iff.mp hgroups
  obtain ⟨g₁, _, hg₁, hnil, rfl⟩ := List.forall₂_cons_left_iff.mp hrest
  obtain rfl := List.forall₂_nil_left_iff.mp hnil
  rw [hgs] at hchecked hhidden ⊢
  have hshown {r : RawGroup} {x : Group} (hx : expandGroup t '@' r = .ok x)
      (hmem : x ∈ [g₀, g₁]) : r.hidden = false ∧ x.backref = backref? r.terms := by
    obtain ⟨es, -, rfl⟩ := expandGroup_ok hx
    exact ⟨hhidden _ hmem, rfl⟩
  obtain ⟨hhidden₀, hbackref₀⟩ := hshown hg₀ (by simp)
  obtain ⟨hhidden₁, hbackref₁⟩ := hshown hg₁ (by simp)
  have hterms₀ : r₀.terms = Text.splitUnescaped ',' b := hr₀.2 hhidden₀
  have hterms₁ : r₁.terms = [['1']] := hr₁.2 hhidden₁
  obtain ⟨hvalues, habsorbed₀⟩ := expandGroup_of_literal hg₀
    (fun term hterm => (hb.terms term (by rwa [← hterms₀])).2)
  obtain ⟨-, habsorbed₁⟩ := expandGroup_of_literal hg₁ (by rw [hterms₁]; decide)
  have hnone : g₀.backref = none :=
    Generator.backref_eq_none (Generator.checkBackrefs_cons.mp hchecked).1
  have hsome : g₁.backref = some 1 := by
    rw [hbackref₁, hterms₁]
    decide
  refine ⟨hchecked, ?_, ?_⟩
  · simp [habsorbed₀, habsorbed₁]
  · rw [Generator.bindings, hgs, Generator.loop, hnone, hvalues, hterms₀, List.flatMap_map]
    simp [Generator.loop, hsome, List.replicate, List.map_eq_flatMap]

end LiteralBody

/-- A program gets the value of the group as it is, and then what a shell reads from the value
where only quotes are escaped. That is the value again exactly when it has no blank and no backslash
and does not begin as a comment. -/
theorem words_repeated {t : FileTree} {settings : Settings} {program b : Text} {g : Generator}
    (hshell : settings.shell = .posix program) (hinput : settings.input = none)
    (hd : settings.style.delimiter = '@') (hb : LiteralBody b)
    (hbuild : build t settings.style (repeatWords b) = .ok g)
    (hhidden : ∀ x ∈ g.groups, x.hidden = false) :
    List.Forall₂
      (fun command terms => ∃ v, terms.map Term.value = [v, v] ∧
        Command.words? settings command =
          (ShellWord.split (escapeTerm .plain v)).map (["cmd".toList, v] ++ ·) ∧
        (Command.words? settings command = some ["cmd".toList, v, v] ↔
          ShellWord.Unbroken v ∧ v.head? ≠ some '#'))
      g.commands g.bindings := by
  have hdelimiter : isDelimiter settings.style.delimiter = true := by rw [hd]; decide
  have heven : ∀ token ∈ repeatWords b,
      (Text.unescapedOffsets settings.style.delimiter token).length % 2 = 0 := by
    rw [hd]
    exact hb.even_repeatWords
  obtain ⟨hchecked, habsorbed, hbindings⟩ := hb.groups_build hd hbuild hhidden
  have hdirect : Command.isDirect settings = true := by rw [Command.isDirect, hshell, hinput]
  rw [Generator.commands_eq_nested hchecked, Generator.nestedCommands_eq, List.forall₂_map_left_iff,
    List.forall₂_same]
  intro terms hterms
  have hcommand := Generator.commandOf_build hdelimiter hbuild heven hhidden habsorbed hterms
  have hslot {i : Nat} {q : QuoteContext} {c : Text} :=
    Generator.slotAt_build (i := i) (q := q) (c := c) hdelimiter hbuild heven hhidden habsorbed
      hterms
  rw [hd] at hcommand hslot
  rw [hb.held_repeatWords] at hslot
  rw [hbindings] at hterms
  obtain ⟨term, hterm, rfl⟩ := List.mem_map.mp hterms
  let v := Text.unescapeStructural '@' term
  obtain ⟨hv, hdangles⟩ := hb.ne_nil_and_dangles hterm
  obtain ⟨t₀, ht₀, hslot₀⟩ := hslot (i := 0) rfl
  obtain ⟨t₁, ht₁, hslot₁⟩ := hslot (i := 1) rfl
  obtain rfl : ⟨v, false⟩ = t₀ := Option.some.inj ht₀
  obtain rfl : ⟨v, false⟩ = t₁ := Option.some.inj ht₁
  have hwords : Command.words? settings (g.commandOf (List.replicate 2 ⟨v, false⟩)) =
      (ShellWord.split (escapeTerm .plain v)).map (["cmd".toList, v] ++ ·) := by
    rw [Command.words?, if_pos hdirect, hcommand]
    exact hb.split_repeatWords hterm hslot₀ hslot₁
  refine ⟨v, rfl, hwords, ?_⟩
  rw [← ShellWord.split_escapeTerm_iff hv hdangles, hwords]
  constructor
  · intro h
    obtain ⟨ws, hws, hall⟩ := Option.map_eq_some_iff.mp h
    have happend : ["cmd".toList, v] ++ ws = ["cmd".toList, v] ++ [v] := hall
    rw [hws, List.append_cancel_left happend]
  · intro h
    rw [h]
    rfl

/-! ## Values that come back, and one that does not -/

/-- What the words around a body in quotes are built to, when it is one literal. -/
def repeated (v : Text) : Generator where
  template := ⟨[.literal "cmd '".toList, .slot 0, .literal "' ".toList, .slot 1, .literal []]⟩
  groups := [{ terms := [⟨v, false⟩], quote := .single },
    { terms := [⟨['1'], false⟩], backref := some 1 }]

/-- An apostrophe is escaped in both words. -/
theorem words_repeatedApostrophe :
    LiteralBody "it's".toList ∧
      build .empty {} (repeatWords "it's".toList) = .ok (repeated "it's".toList) ∧
      (∀ x ∈ (repeated "it's".toList).groups, x.hidden = false) ∧
      (repeated "it's".toList).commands.map (Command.words? {}) =
        [some ["cmd".toList, "it's".toList, "it's".toList]] := by
  have hb : LiteralBody "it's".toList := ⟨by decide, by decide, by decide⟩
  have hbuild : build .empty {} (repeatWords "it's".toList) = .ok (repeated "it's".toList) := by
    decide +kernel
  have hhidden : ∀ x ∈ (repeated "it's".toList).groups, x.hidden = false := by decide
  have hwords := @words_repeated _ {} _ _ _ rfl rfl rfl hb hbuild hhidden
  have hcommands : (repeated "it's".toList).commands = ["cmd 'it'\\''s' it\\'s".toList] := by
    decide +kernel
  have hbindings : (repeated "it's".toList).bindings =
      [[⟨"it's".toList, false⟩, ⟨"it's".toList, false⟩]] := by decide
  rw [hcommands, hbindings] at hwords
  obtain ⟨v, hv, -, hiff⟩ := (List.forall₂_cons.mp hwords).1
  obtain rfl : "it's".toList = v := (List.cons.inj hv).1
  refine ⟨hb, hbuild, hhidden, ?_⟩
  rw [hcommands, List.map_singleton, hiff.mpr (by decide)]

/-- Not every value comes back: one with a blank is one argument where the group stands, and two
where it is repeated. -/
theorem not_words_twice : ¬ ∀ (b : Text) (g : Generator), LiteralBody b →
    build .empty {} (repeatWords b) = .ok g → (∀ x ∈ g.groups, x.hidden = false) →
      List.Forall₂ (fun command terms => ∃ v, terms.map Term.value = [v, v] ∧
        Command.words? {} command = some ["cmd".toList, v, v]) g.commands g.bindings := by
  intro hall
  have hb : LiteralBody "a b".toList := ⟨by decide, by decide, by decide⟩
  have hbuild : build .empty {} (repeatWords "a b".toList) = .ok (repeated "a b".toList) := by
    decide +kernel
  have hwords := hall _ _ hb hbuild (by decide)
  have hcommands : (repeated "a b".toList).commands = ["cmd 'a b' a b".toList] := by
    decide +kernel
  have hbindings : (repeated "a b".toList).bindings =
      [[⟨"a b".toList, false⟩, ⟨"a b".toList, false⟩]] := by decide
  rw [hcommands, hbindings] at hwords
  obtain ⟨v, hv, htwice⟩ := (List.forall₂_cons.mp hwords).1
  obtain rfl : "a b".toList = v := (List.cons.inj hv).1
  exact absurd htwice (by decide)

end Fanout
