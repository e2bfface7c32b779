import Fanout.Batch.Command
import Fanout.Proofs.Building
import Fanout.Proofs.Grammar

/-!
# Words arrive as they are written

A row of words goes a long way to a program: each word is quoted, the line is taken apart into
literals and groups, values are quoted for their slots, and a shell splits the command. What arrives
is each word with its groups replaced by values, and nothing else.

* `delivered`: a word with values for its groups, by the offsets of its delimiters.
* `deliveredFrom`: a row of them. A word outside quotes that comes out empty leaves no argument.
* `HarmlessFrom`: no value outside quotes has a character that the shell would take for its own.
* `words_commands`: the words of each command are the arguments for its binding.
-/

namespace Fanout

/-- A word with values in place of its groups. The values are numbered through a row of words, from
`k` in this one. -/
def delivered (d : Char) (values : List Text) (k : Nat) (token : Text) : Text :=
  (List.range (groupCount d token)).flatMap
      (fun i => Text.unescapeStructural d (Text.stretch d token (2 * i)) ++ values.getD (k + i) [])
    ++ Text.unescapeStructural d (Text.stretch d token (2 * groupCount d token))

/-- The words of a row with values in place of their groups. A word outside quotes that is empty
then is none. -/
def deliveredFrom (d : Char) (values : List Text) (k : Nat) : List Text → List Text
  | [] => []
  | token :: tokens =>
    let rest := deliveredFrom d values (k + groupCount d token) tokens
    if ShellWord.isBare token = true ∧ delivered d values k token = [] then rest
    else delivered d values k token :: rest

/-- No character of the value means anything to a shell outside quotes, unless it is a quote. -/
def Harmless (v : Text) : Prop := ∀ c ∈ v, c ∉ [' ', '\t', '\n', '\\', '#']

/-- The values of all slots outside quotes are harmless. -/
def HarmlessFrom (d : Char) (values : List Text) (k : Nat) : List Text → Prop
  | [] => True
  | token :: tokens =>
    (ShellWord.isBare token = true → ∀ i < groupCount d token, Harmless (values.getD (k + i) [])) ∧
      HarmlessFrom d values (k + groupCount d token) tokens

instance (v : Text) : Decidable (Harmless v) :=
  List.decidableBAll (fun c => c ∉ [' ', '\t', '\n', '\\', '#']) v

instance decidableHarmlessFrom (d : Char) (values : List Text) : (k : Nat) →
    (tokens : List Text) → Decidable (HarmlessFrom d values k tokens)
  | _, [] => isTrue True.intro
  | k, token :: tokens =>
    have := decidableHarmlessFrom d values (k + groupCount d token) tokens
    inferInstanceAs (Decidable (_ ∧ _))

/-- The characters of a bare word are harmless. -/
theorem harmless_of_not_special {v : Text} (h : ∀ c ∈ v, c ∉ ShellWord.specials) : Harmless v := by
  intro c hc hbad
  refine h c hc ?_
  simp only [List.mem_cons, List.not_mem_nil, or_false] at hbad
  obtain rfl | rfl | rfl | rfl | rfl := hbad <;> decide

/-! ## Texts in slots -/

/-- Pieces show what a change of their texts makes of what they showed. -/
theorem filled_map {d : Char} {w e : Text → Text} (happend : ∀ t u, e (t ++ u) = e t ++ e u)
    (hnil : e [] = []) {slot value : Nat → Text} : ∀ {k : Nat} {ts : List Text},
      (∀ t ∈ ts, Text.unescapeStructural d (w t) = e (Text.unescapeStructural d t)) →
      (∀ i < ts.length / 2, slot (k + i) = e (value (k + i))) →
        filled d slot (segmentsFrom k (ts.map w)) = e (filled d value (segmentsFrom k ts))
  | _, [], _, _ => hnil.symm
  | k, [l], hw, _ => by
    simpa [segmentsFrom, filled] using hw l List.mem_cons_self
  | k, l :: c :: ts, hw, hslot => by
    have hl := hw l List.mem_cons_self
    have hfirst : slot k = e (value k) := hslot 0 (by simp)
    have hrest : filled d slot (segmentsFrom (k + 1) (ts.map w)) =
        e (filled d value (segmentsFrom (k + 1) ts)) := by
      refine filled_map happend hnil (fun t ht => ?_) fun i hi => ?_
      · exact hw t (List.mem_cons_of_mem _ (List.mem_cons_of_mem _ ht))
      · have hnext := hslot (i + 1) (by simp only [List.length_cons]; omega)
        rwa [show k + (i + 1) = k + 1 + i by omega] at hnext
    have hsplit (slot : Nat → Text) (l c : Text) (ts : List Text) :
        filled d slot (segmentsFrom k (l :: c :: ts)) =
          Text.unescapeStructural d l ++ (slot k ++ filled d slot (segmentsFrom (k + 1) ts)) := rfl
    rw [List.map_cons, List.map_cons, hsplit, hsplit, hl, hfirst, hrest, happend, happend]

/-- Each character that pieces show is one of a literal, or one of a value. -/
theorem mem_filled {d : Char} {value : Nat → Text} {c : Char} : ∀ {k : Nat} {ts : List Text},
    c ∈ filled d value (segmentsFrom k ts) →
      (∃ t ∈ ts, c ∈ Text.unescapeStructural d t) ∨ ∃ i < ts.length / 2, c ∈ value (k + i)
  | _, [], h => absurd h List.not_mem_nil
  | _, [l], h => .inl ⟨l, List.mem_cons_self, by simpa [segmentsFrom, filled] using h⟩
  | k, l :: x :: ts, h => by
    have hsplit : c ∈ Text.unescapeStructural d l ++
        (value k ++ filled d value (segmentsFrom (k + 1) ts)) := h
    obtain hl | hrest := List.mem_append.mp hsplit
    · exact .inl ⟨l, List.mem_cons_self, hl⟩
    obtain hv | hrest := List.mem_append.mp hrest
    · exact .inr ⟨0, by simp, hv⟩
    obtain ⟨t, ht, hc⟩ | ⟨i, hi, hc⟩ := mem_filled hrest
    · exact .inl ⟨t, List.mem_cons_of_mem _ (List.mem_cons_of_mem _ ht), hc⟩
    · refine .inr ⟨i + 1, by simp only [List.length_cons]; omega, ?_⟩
      rwa [show k + (i + 1) = k + 1 + i by omega]

/-- Outside quotes, a value without a space is written the same whether it names a node or not. -/
theorem quoteTerm_plain (node : Bool) {v : Text} (h : ' ' ∉ v) :
    quoteTerm .plain node v = escapeTerm .plain v := by
  have hspaces : escapeSpaces v = v := by
    induction v with
    | nil => rfl
    | cons c v ih =>
      rw [List.mem_cons, not_or] at h
      have hcons : escapeSpaces (c :: v) = [c] ++ escapeSpaces v := by
        simp [escapeSpaces, Ne.symm h.1]
      rw [hcons, ih h.2]
      rfl
  cases node
  · rfl
  · rw [quoteTerm, if_pos (by decide), hspaces]

section Word

variable {d : Char} (hd : isDelimiter d = true) {values : List Text} {k : Nat} {token : Text}
  (heven : (Text.unescapedOffsets d token).length % 2 = 0)

include hd heven

/-- An argument is what the pieces of its word show. -/
theorem delivered_eq_filled : delivered d values k token =
    filled d (fun j => values.getD j []) (segmentsFrom k (Text.splitUnescaped d token)) := by
  have hb := ne_backslash_of_isDelimiter hd
  have hcount : (Text.unescapedOffsets d token).length + 1 = 2 * groupCount d token + 1 := by
    rw [groupCount]
    omega
  rw [splitUnescaped_eq_range hb, hcount, segmentsFrom_eq, filled_append, filled_literal, delivered,
    filled, List.flatMap_assoc]
  simp

variable {slot : Nat → Text}

/-- A word in quotes arrives as its argument. -/
theorem spells_spelled_quoted (hbare : ShellWord.isBare token = false)
    (hslot : ∀ i < groupCount d token, ∃ node,
      slot (k + i) = quoteTerm .single node (values.getD (k + i) [])) :
    ShellWord.Spells (spelled d slot k token) [delivered d values k token] := by
  have hb := ne_backslash_of_isDelimiter hd
  have hstructural : Text.isStructural d '\'' = false := by
    have ha := ne_apostrophe_of_isDelimiter hd
    simp [Text.isStructural, ha.symm]
  have hfilled : filled d slot
      (segmentsFrom k ((Text.splitUnescaped d token).map ShellWord.quotedBody)) =
        ShellWord.quotedBody (delivered d values k token) := by
    rw [delivered_eq_filled hd heven]
    refine filled_map ShellWord.quotedBody_append rfl (fun t _ => ?_) fun i hi => ?_
    · exact ShellWord.unescape_quotedBody hstructural t
    · rw [length_splitUnescaped_half hb heven] at hi
      obtain ⟨node, hnode⟩ := hslot i hi
      rw [hnode]
      cases node <;> rfl
  rw [spelled, hbare, if_neg (by decide), hfilled]
  exact ShellWord.spells_quoted _

/-- A word outside quotes arrives as its argument, or not at all when that is empty. -/
theorem spells_spelled_bare (hbare : ShellWord.isBare token = true)
    (hvalues : ∀ i < groupCount d token, Harmless (values.getD (k + i) []))
    (hslot : ∀ i < groupCount d token, ∃ node,
      slot (k + i) = quoteTerm .plain node (values.getD (k + i) [])) :
    ShellWord.Spells (spelled d slot k token)
      (if delivered d values k token = [] then [] else [delivered d values k token]) := by
  have hb := ne_backslash_of_isDelimiter hd
  have hstretch {t : Text} (ht : t ∈ Text.splitUnescaped d token) :
      Text.unescapeStructural d t = t ∧ ∀ c ∈ t, c ∉ ShellWord.specials := by
    have hspecial : ∀ c ∈ t, c ∉ ShellWord.specials := fun c hc =>
      ShellWord.not_special_of_isBare hbare (mem_of_mem_splitUnescaped hb ht hc)
    exact ⟨Text.unescape_of_not_mem fun h => hspecial _ h (by decide), hspecial⟩
  -- the argument has no character that the shell acts on, but for quotes
  have hharmless : Harmless (delivered d values k token) := by
    intro c hc
    rw [delivered_eq_filled hd heven] at hc
    obtain ⟨t, ht, hct⟩ | ⟨i, hi, hci⟩ := mem_filled hc
    · obtain ⟨hunescape, hspecial⟩ := hstretch ht
      rw [hunescape] at hct
      exact harmless_of_not_special hspecial c hct
    · rw [length_splitUnescaped_half hb heven] at hi
      exact hvalues i hi c hci
  have hunbroken : ShellWord.Unbroken (delivered d values k token) := by
    intro c hc hbad
    refine hharmless c hc ?_
    simp only [List.mem_cons, List.not_mem_nil, or_false] at hbad ⊢
    tauto
  have hhash : (delivered d values k token).head? ≠ some '#' := by
    intro hhead
    obtain ⟨v, hv⟩ := List.head?_eq_some_iff.mp hhead
    exact hharmless '#' (by rw [hv]; exact List.mem_cons_self) (by decide)
  -- and it is written as a value outside quotes is
  have hliterals : ∀ l ∈ Text.splitUnescaped d token,
      Text.unescapeStructural d (id l) = escapeTerm .plain (Text.unescapeStructural d l) := by
    intro l hl
    obtain ⟨hunescape, hspecial⟩ := hstretch hl
    rw [id, hunescape, ShellWord.escapeTerm_plain_of_not_special hspecial]
  have hslots : ∀ i < (Text.splitUnescaped d token).length / 2,
      slot (k + i) = escapeTerm .plain (values.getD (k + i) []) := by
    intro i hi
    rw [length_splitUnescaped_half hb heven] at hi
    obtain ⟨node, hnode⟩ := hslot i hi
    rw [hnode]
    exact quoteTerm_plain node fun h => hvalues i hi _ h (by decide)
  have hfilled : filled d slot (segmentsFrom k ((Text.splitUnescaped d token).map id)) =
      escapeTerm .plain (delivered d values k token) := by
    rw [delivered_eq_filled hd heven]
    exact filled_map ShellWord.escapeTerm_plain_append rfl hliterals hslots
  rw [List.map_id] at hfilled
  rw [spelled, if_pos hbare, hfilled]
  exact ShellWord.spells_escaped hunbroken hhash

end Word

/-- A row of words arrives as its arguments. -/
theorem split_spelledFrom {d : Char} (hd : isDelimiter d = true) {values : List Text}
    {slot : Nat → Text} {k : Nat} {tokens : List Text}
    (heven : ∀ token ∈ tokens, (Text.unescapedOffsets d token).length % 2 = 0)
    (hvalues : HarmlessFrom d values k tokens)
    (hslot : ∀ i q c, (tokens.flatMap (held d))[i]? = some (q, c) → ∃ node,
      slot (k + i) = quoteTerm q node (values.getD (k + i) [])) :
    ShellWord.split (Text.join [' '] (spelledFrom d slot k tokens)) =
      some (deliveredFrom d values k tokens) := by
  have hb := ne_backslash_of_isDelimiter hd
  suffices hspells : ∃ wss, List.Forall₂ ShellWord.Spells (spelledFrom d slot k tokens) wss ∧
      wss.flatten = deliveredFrom d values k tokens by
    obtain ⟨wss, hwss, hflatten⟩ := hspells
    rw [ShellWord.split_join_of_spells hwss, hflatten]
  induction tokens generalizing k with
  | nil => exact ⟨[], List.Forall₂.nil, rfl⟩
  | cons token tokens ih =>
    have htoken := heven token List.mem_cons_self
    have hlength := length_held hb htoken
    have hfirst : ∀ i < groupCount d token, ∃ node,
        slot (k + i) = quoteTerm (contextOf token) node (values.getD (k + i) []) := by
      intro i hi
      have hheld : i < (held d token).length := by omega
      refine hslot i (contextOf token) ((held d token)[i].2) ?_
      rw [List.flatMap_cons, List.getElem?_append_left hheld, List.getElem?_eq_getElem hheld]
      simp [held]
    obtain ⟨wss, hwss, hflatten⟩ := ih (k := k + groupCount d token)
      (fun t ht => heven t (List.mem_cons_of_mem _ ht)) hvalues.2 (by
        intro i q c hi
        rw [Nat.add_assoc]
        refine hslot (groupCount d token + i) q c ?_
        rw [List.flatMap_cons, List.getElem?_append_right (by omega), hlength,
          Nat.add_sub_cancel_left]
        exact hi)
    rw [deliveredFrom]
    cases hbare : ShellWord.isBare token with
    | true =>
      have hcontext : contextOf token = .plain := if_pos hbare
      rw [hcontext] at hfirst
      have hword := spells_spelled_bare hd htoken hbare (hvalues.1 hbare) hfirst
      refine ⟨_ :: wss, List.Forall₂.cons hword hwss, ?_⟩
      rw [List.flatten_cons, hflatten]
      by_cases hempty : delivered d values k token = [] <;> simp [hempty]
    | false =>
      have hcontext : contextOf token = .single := by rw [contextOf, hbare, if_neg (by decide)]
      rw [hcontext] at hfirst
      have hword := spells_spelled_quoted hd htoken hbare hfirst
      refine ⟨_ :: wss, List.Forall₂.cons hword hwss, ?_⟩
      rw [List.flatten_cons, hflatten]
      simp

/-- Without hidden and absorbed groups, and with harmless values outside quotes, every command hands
a program the words of the row as they are written, with the values of its binding. -/
theorem words_commands {t : FileTree} {settings : Settings} {program : Text} {tokens : List Text}
    {g : Generator} (hshell : settings.shell = .posix program) (hinput : settings.input = none)
    (hd : isDelimiter settings.style.delimiter = true)
    (hbuild : build t settings.style tokens = .ok g)
    (heven : ∀ token ∈ tokens,
      (Text.unescapedOffsets settings.style.delimiter token).length % 2 = 0)
    (hhidden : ∀ x ∈ g.groups, x.hidden = false) (habsorbed : ∀ x ∈ g.groups, x.absorbed = false)
    (hvalues : ∀ terms ∈ g.bindings,
      HarmlessFrom settings.style.delimiter (terms.map Term.value) 0 tokens) :
    g.commands.map (Command.words? settings) = g.bindings.map fun terms =>
      some (deliveredFrom settings.style.delimiter (terms.map Term.value) 0 tokens) := by
  obtain ⟨-, -, -, hchecked⟩ := Generator.holds_build hd hbuild heven
  have hdirect : Command.isDirect settings = true := by rw [Command.isDirect, hshell, hinput]
  rw [Generator.commands_eq_nested hchecked, Generator.nestedCommands_eq, List.map_map]
  refine List.map_congr_left fun terms hterms => ?_
  rw [Function.comp_apply, Command.words?, if_pos hdirect,
    Generator.commandOf_build hd hbuild heven hhidden habsorbed hterms]
  refine split_spelledFrom hd heven (hvalues terms hterms) fun i q c hi => ?_
  obtain ⟨term, hterm, hslot⟩ :=
    Generator.slotAt_build hd hbuild heven hhidden habsorbed hterms hi
  refine ⟨term.node, ?_⟩
  rw [Nat.zero_add, hslot, List.getD_eq_getElem?_getD, List.getElem?_map, hterm]
  rfl

/-- Words with an apostrophe, a blank, an escaped delimiter and a back reference, and one that can
come out empty. -/
def mixedWords : List Text := ["it's @a b,c'@ \\@".toList, "@,x@".toList, "@1@?".toList]

/-- What they are built to. -/
def mixedGenerator : Generator where
  template := ⟨[.literal "'it'\\''s ".toList, .slot 0, .literal " @' ".toList, .slot 1,
    .literal " '".toList, .slot 2, .literal "?'".toList]⟩
  groups :=
    [{ terms := [⟨"a b".toList, false⟩, ⟨"c'".toList, false⟩], quote := .single },
      { terms := [⟨[], false⟩, ⟨['x'], false⟩] },
      { terms := [⟨['1'], false⟩], quote := .single, backref := some 1 }]

/-- The blank stays in its argument, the apostrophes come back, and the empty word is gone. -/
theorem words_mixedGenerator :
    isDelimiter '@' = true ∧ build .empty {} mixedWords = .ok mixedGenerator ∧
      mixedGenerator.commands.map (Command.words? {}) =
        [some ["it's a b @".toList, "a b?".toList],
          some ["it's a b @".toList, ['x'], "a b?".toList],
          some ["it's c' @".toList, "c'?".toList],
          some ["it's c' @".toList, ['x'], "c'?".toList]] := by
  have hd : isDelimiter '@' = true := by decide
  have hbuild : build .empty {} mixedWords = .ok mixedGenerator := by decide +kernel
  have heven : ∀ token ∈ mixedWords, (Text.unescapedOffsets '@' token).length % 2 = 0 := by
    decide +kernel
  have hharmless : ∀ terms ∈ mixedGenerator.bindings,
      HarmlessFrom '@' (terms.map Term.value) 0 mixedWords := by
    decide +kernel
  have hwords :=
    @words_commands _ {} _ _ _ rfl rfl hd hbuild heven (by decide) (by decide) hharmless
  refine ⟨hd, hbuild, ?_⟩
  rw [hwords]
  decide +kernel

end Fanout
