import Mathlib
import Fanout.Proofs.Fidelity
import Fanout.Proofs.Inheriting
import Fanout.Proofs.Ranges

/-!
# A path in front of a group

A group that searches behind an external path shows that path itself, and right behind it what each
match adds to it. The search puts a slash between the two where there is none, but the group does
not: so a program gets the path of a match when the external path ends with a slash, and otherwise a
text in which the last name of the path runs into the first of the match.

* `ExternalPath`: a text that a group behind it in the same word takes for its path.
* `Reader.finish_lead`: how a line with such a group is read.
* `build_searchWords`: what building makes of it; `commands_searchGenerator`: the commands.
* `split_searchCommand`: the arguments in a command.
* `words_absorbed`: what the program gets for each match, and when it is the match.
-/

namespace Fanout

/-! ## Reading -/

namespace Reader

variable {style : GroupStyle} {r : Reader}

/-- No character of the text ends a path or escapes. -/
def Glued (d : Char) (t : Text) : Prop :=
  ∀ c ∈ t, isQuote c = false ∧ Text.isBlank c = false ∧ c ≠ '\\' ∧ c ≠ d

/-- Such a text joins whatever may become the lead of a group. -/
theorem foldl_glued (ho : r.opened = none) (hs : r.scanner.escaping = false) {t : Text}
    (h : Glued style.delimiter t) :
    t.foldl (step style) r =
      { r with
        offset := r.offset + t.byteLength, literal := t.reverse ++ r.literal
        quoted := t.reverse ++ r.quoted, run := t.reverse ++ r.run } := by
  induction t generalizing r with
  | nil => simp
  | cons c t ih =>
    obtain ⟨⟨hquote, hblank, hback, hd⟩, ht⟩ := List.forall_mem_cons.mp h
    have hescapes : r.scanner.escapes c true = false := by simp [Scanner.escapes, hs]
    have hcontext : r.scanner.context.after c = r.scanner.context := by
      simp only [isQuote, Bool.or_eq_false_iff, decide_eq_false_iff_not] at hquote
      cases hc : r.scanner.context <;> simp [QuoteContext.after, hquote]
    have hself : ({ context := r.scanner.context, escaping := false } : Scanner) = r.scanner := by
      rw [← hs]
    have hnext : r.scanner.next c true = r.scanner := by
      simp [Scanner.next, hescapes, hs, hback, hcontext, hself]
    have hstep : r.step style c =
        { r with
          offset := r.offset + c.utf8Size, literal := c :: r.literal, quoted := c :: r.quoted
          run := c :: r.run } := by
      unfold step
      simp [ho, hescapes, hd, hnext, keep, stop, hquote, hblank]
    have hrest := ih (r := { r with
      offset := r.offset + c.utf8Size, literal := c :: r.literal, quoted := c :: r.quoted
      run := c :: r.run }) ho hs ht
    rw [List.foldl_cons, hstep, hrest]
    simp [Nat.add_assoc]

/-- A reader at the first word or quote of a line, where a path in front of a group may begin. -/
structure Fresh (r : Reader) : Prop where
  opened : r.opened = none
  escaping : r.scanner.escaping = false
  run : r.run = []
  quoted : r.scanner.context = .plain ∨ r.quoted = []
  segments : r.segments = []
  groups : r.groups = []

theorem Fresh.leadOf_eq (hr : r.Fresh) (lead : Text) :
    leadOf r.scanner.context (lead.reverse ++ r.quoted).reverse (lead.reverse ++ r.run).reverse
      = lead := by
  rw [hr.run, List.append_nil, List.reverse_reverse, leadOf]
  obtain hplain | hquoted := hr.quoted
  · simp [hplain]
  · simp [hquoted]

/-- A path glued to a group becomes its lead. -/
theorem exists_foldl_lead (hd : isDelimiter style.delimiter = true) (hr : r.Fresh) {lead : Text}
    (h : Glued style.delimiter lead) : ∃ r' n,
      (lead ++ [style.delimiter]).foldl (step style) r = r' ∧
        r'.opened = some ⟨n, r.scanner.context, lead, []⟩ ∧ r'.scanner = r.scanner ∧
        r'.literal = lead.reverse ++ r.literal ∧ r'.segments = [] ∧ r'.groups = [] := by
  have hopen := step_lead (r := { r with
    offset := r.offset + lead.byteLength, literal := lead.reverse ++ r.literal
    quoted := lead.reverse ++ r.quoted, run := lead.reverse ++ r.run }) hd hr.opened hr.escaping
  rw [hr.leadOf_eq] at hopen
  rw [List.foldl_append, foldl_glued hr.opened hr.escaping h, List.foldl_cons, List.foldl_nil,
    hopen]
  exact ⟨_, _, rfl, rfl, rfl, rfl, hr.segments, hr.groups⟩

/-- A group whose content lacks an unescaped delimiter stays open. -/
theorem finish_opened {g : OpenGroup} (ho : r.opened = some g) {c : Text}
    (hc : Text.Lacks style.delimiter r.scanner.escaping c) {raw : RawTemplate} :
    (c.foldl (step style) r).finish style ≠ .ok raw := by
  rw [foldl_content ho hc, finish]
  simp

/-- The last literal of a line. -/
theorem finish_literal (hd : isDelimiter style.delimiter = true) (ho : r.opened = none) {t : Text}
    (h : Text.Lacks style.delimiter r.scanner.escaping t) :
    (t.foldl (step style) r).finish style =
      .ok ⟨r.segments ++ [.literal (r.literal.reverse ++ t)], r.groups⟩ := by
  obtain ⟨quoted, run, hliteral⟩ := foldl_literal hd ho h
  simp [hliteral, finish, ho]

/-- The rest of a line with one group and a path glued to its front. -/
theorem finish_lead (hd : isDelimiter style.delimiter = true) (hr : r.Fresh)
    {lead content tail : Text} (hlead : Glued style.delimiter lead)
    (hcontent : Text.Lacks style.delimiter false content)
    (htail : Text.Lacks style.delimiter false tail) {raw : RawTemplate}
    (h : ((lead ++ style.delimiter :: (content ++ style.delimiter :: tail)).foldl (step style)
      r).finish style = .ok raw) : ∃ n, raw =
        { segments := [.literal (r.literal.reverse ++ lead), .slot 0, .literal tail]
          groups := [OpenGroup.close style ⟨n, r.scanner.context, lead, content.reverse⟩] } := by
  obtain ⟨r', n, hfold, hopened, hscanner, hliteral, hsegments, hgroups⟩ :=
    exists_foldl_lead hd hr hlead
  have hescaping : r'.scanner.escaping = false := by rw [hscanner, hr.escaping]
  rw [List.append_cons, List.foldl_append, hfold] at h
  cases hdangles : Text.dangles false content with
  | true =>
    -- the closing delimiter is escaped, so it does not close the group
    have hlacks : Text.Lacks style.delimiter r'.scanner.escaping
        (content ++ style.delimiter :: tail) := by
      rw [hescaping, Text.lacks_append, hdangles]
      exact ⟨hcontent, fun _ => rfl, htail⟩
    exact absurd h (finish_opened hopened hlacks)
  | false =>
    rw [List.append_cons, List.foldl_append,
      foldl_close hd hopened hescaping hcontent hdangles,
      finish_literal hd rfl (by rwa [hescaping])] at h
    obtain rfl := Except.ok.inj h
    exact ⟨n, by simp [hliteral, hsegments, hgroups]⟩

end Reader

/-! ## Expanding -/

/-- The term that asks for a search. -/
def searchTerm (kind : NodeKind) (pattern : Text) : Text := kind.name ++ ':' :: pattern

/-- A term that begins as a search is one. -/
theorem ofTerm_searchTerm (kind : NodeKind) (pattern : Text) :
    Directive.ofTerm (searchTerm kind pattern) = .nodes kind pattern := by
  have hrange : readRange? (searchTerm kind pattern) = none := by
    cases kind <;> exact readRange?_cons (by decide) _
  rw [Directive.ofTerm, hrange]
  cases kind <;> rfl

theorem not_mem_searchTerm {c : Char} {pattern : Text} (hc : c = '@' ∨ c = ',') (h : c ∉ pattern)
    (kind : NodeKind) : c ∉ searchTerm kind pattern := by
  have hname : c ∉ kind.name ++ [':'] := by
    obtain rfl | rfl := hc <;> cases kind <;> decide
  rw [searchTerm, List.append_cons, List.mem_append]
  exact fun hmem => hmem.elim hname h

section Search

variable {t : FileTree} {ext pattern : Text} {kind : NodeKind} (hext : Glob.Untainted ext)

include hext

theorem relative_of_showNode {absolute : Bool} {p r : Text}
    (h : showNode absolute (some ext) p = .ok r) : Path.relative? ext p = some r := by
  simp only [showNode, Glob.hasWildcards_of_untainted hext, Bool.false_eq_true, if_false,
    Glob.dropWildcardEscapes_of_untainted hext] at h
  cases hr : Path.relative? ext p with
  | none => simp [hr] at h
  | some x =>
    rw [hr] at h
    rw [Except.ok.inj h]

/-- A search behind an untainted path shows what its matches add to the path, and absorbs it. -/
theorem exists_of_expandNodes {x : NodeExpansion}
    (h : expandNodes t kind pattern (some ext) = .ok x) :
    ∃ found, matchesOf t kind pattern (some ext) = .ok found ∧
      List.Forall₂ (fun p r => Path.relative? ext p = some r) found x.nodes ∧
      x.absorbed = true := by
  unfold expandNodes at h
  extract_lets absolute at h
  split_ifs at h
  obtain ⟨found, hfound, h⟩ := exists_of_bind_eq_ok h
  obtain ⟨nodes, hnodes, h⟩ := exists_of_bind_eq_ok h
  obtain rfl := Except.ok.inj h
  refine ⟨found, hfound, ?_, ?_⟩
  · exact (forall₂_of_mapM hnodes).imp fun p r hp => relative_of_showNode hext hp
  · simp [isTainted, Glob.hasWildcards_of_untainted hext]

variable (hdelimiter : '@' ∉ pattern) (hcomma : ',' ∉ pattern)

include hdelimiter hcomma

theorem exists_of_expandTerm {e : TermExpansion}
    (h : expandTerm t '@' (some ext) (searchTerm kind pattern) = .ok e) :
    ∃ found nodes, matchesOf t kind pattern (some ext) = .ok found ∧
      List.Forall₂ (fun p r => Path.relative? ext p = some r) found nodes ∧
      e = { values := nodes, nodes := true, absorbed := true } := by
  have hterm : Text.unescapeStructural '@' (searchTerm kind pattern) = searchTerm kind pattern := by
    refine Text.unescape_of_forall fun c hc => ?_
    have hat : c ≠ '@' := by
      rintro rfl
      exact not_mem_searchTerm (.inl rfl) hdelimiter kind hc
    have hsep : c ≠ ',' := by
      rintro rfl
      exact not_mem_searchTerm (.inr rfl) hcomma kind hc
    simp [Text.isStructural, hat, hsep]
  rw [expandTerm, hterm] at h
  simp only [ofTerm_searchTerm] at h
  obtain ⟨x, hx, h⟩ := exists_of_bind_eq_ok h
  obtain ⟨found, hfound, hshown, habsorbed⟩ := exists_of_expandNodes hext (Stop.lift_eq_ok.mp hx)
  obtain rfl := Except.ok.inj h
  exact ⟨found, x.nodes, hfound, hshown, by rw [habsorbed]⟩

end Search

/-! ## The word on the line -/

/-- The quotes around a context. -/
def QuoteContext.mark : QuoteContext → Text
  | .plain => []
  | .single => ['\'']
  | .double => ['"']

theorem escapeTerm_append (q : QuoteContext) (t u : Text) :
    escapeTerm q (t ++ u) = escapeTerm q t ++ escapeTerm q u := by
  cases q <;> simp [escapeTerm]

/-- Only quotes are escaped. -/
theorem escapeTerm_of_not_quote {t : Text} (h : ∀ c ∈ t, isQuote c = false) (q : QuoteContext) :
    escapeTerm q t = t := by
  induction t with
  | nil => cases q <;> rfl
  | cons c t ih =>
    obtain ⟨hc, ht⟩ := List.forall_mem_cons.mp h
    have hfirst : escapeTerm q [c] = [c] := by
      have hne : c ≠ '\'' := ShellWord.ne_apostrophe_of_not_quote (by simp [hc])
      cases q <;> simp [escapeTerm, hc, hne]
    rw [← List.singleton_append, escapeTerm_append, hfirst, ih ht]

theorem mem_of_mem_escapeTerm {q : QuoteContext} {t : Text} {c : Char} (h : c ∈ escapeTerm q t)
    (hback : c ≠ '\\') : c ∈ t := by
  cases q with
  | plain =>
    obtain ⟨x, hx, hc⟩ := List.mem_flatMap.mp h
    split_ifs at hc <;> simp_all
  | single =>
    obtain ⟨x, hx, hc⟩ := List.mem_flatMap.mp h
    split_ifs at hc <;> simp_all [apostropheInSingle]
  | double => exact h

/-- A word is written in its quotes, or bare without any of the characters that need them. -/
theorem contextOf_cases (w : Text) :
    contextOf w = .single ∨ contextOf w = .plain ∧ ShellWord.isBare w = true := by
  unfold contextOf
  split_ifs with hbare
  · exact .inr ⟨rfl, hbare⟩
  · exact .inl rfl

theorem quote_eq (w : Text) :
    ShellWord.quote w = (contextOf w).mark ++ escapeTerm (contextOf w) w ++ (contextOf w).mark := by
  unfold ShellWord.quote contextOf
  split_ifs with hbare
  · have hspecial : ∀ c ∈ w, c ∉ ShellWord.specials := fun c hc =>
      ShellWord.not_special_of_isBare hbare hc
    rw [ShellWord.escapeTerm_plain_of_not_special hspecial]
    simp [QuoteContext.mark]
  · rfl

/-- What is written of a term in a word is undone when it is read. -/
theorem unquoteBody_escapeTerm {w t : Text} (h : ∀ c ∈ t, c ∈ w) :
    unquoteBody (contextOf w) (escapeTerm (contextOf w) t) = t := by
  obtain hsingle | ⟨hplain, hbare⟩ := contextOf_cases w
  · rw [hsingle]
    exact ShellWord.readApostrophes_quotedBody t
  · have hspecial : ∀ c ∈ t, c ∉ ShellWord.specials := fun c hc =>
      ShellWord.not_special_of_isBare hbare (h c hc)
    rw [hplain, ShellWord.escapeTerm_plain_of_not_special hspecial]
    exact Text.unescape_of_not_mem fun hmem => hspecial _ hmem (by decide)

/-- A text that is a path by its slash, with no character that a search, a quote, a blank or a group
could make something else of. -/
structure ExternalPath (ext : Text) : Prop where
  slash : '/' ∈ ext
  plain : ∀ c ∈ ext, Glob.isWildcard c = false ∧ isQuote c = false ∧ c ≠ '\\' ∧
    Text.isBlank c = false ∧ c ≠ '@'

instance (ext : Text) : Decidable (ExternalPath ext) :=
  decidable_of_iff ('/' ∈ ext ∧ ext.all fun c => !Glob.isWildcard c && !isQuote c && c ≠ '\\' &&
    !Text.isBlank c && c ≠ '@') ⟨fun ⟨hslash, hall⟩ => ⟨hslash, by simpa [and_assoc] using hall⟩,
      fun h => ⟨h.slash, by simpa [and_assoc] using h.plain⟩⟩

/-- A word with a search behind a path. -/
def searchWord (ext : Text) (kind : NodeKind) (pattern : Text) : Text :=
  ext ++ '@' :: (searchTerm kind pattern ++ ['@'])

/-- A command with such a word. -/
def searchWords (ext : Text) (kind : NodeKind) (pattern : Text) : List Text :=
  ["cat".toList, searchWord ext kind pattern]

/-- The group in it, when the search shows `nodes` in the quotes. -/
def searchGroup (ext : Text) (q : QuoteContext) (nodes : List Text) : Group where
  terms := nodes.map (Term.mk · true)
  externalPath := some ext
  absorbed := true
  quote := q

/-- What building makes of it then. -/
def searchGenerator (ext : Text) (q : QuoteContext) (nodes : List Text) : Generator where
  template := .ofSegments [.literal ("cat ".toList ++ q.mark), .slot 0, .literal q.mark] '@'
  groups := [searchGroup ext q nodes]

section Line

variable {ext pattern : Text} {kind : NodeKind} (hext : ExternalPath ext)

include hext

theorem ExternalPath.untainted : Glob.Untainted ext := fun c hc =>
  ⟨(hext.plain c hc).1, (hext.plain c hc).2.2.1⟩

theorem ExternalPath.ne_nil : ext ≠ [] := by
  rintro rfl
  exact absurd hext.slash List.not_mem_nil

theorem ExternalPath.glued : Reader.Glued '@' ext := fun c hc => by
  obtain ⟨-, hquote, hback, hblank, hat⟩ := hext.plain c hc
  exact ⟨hquote, hblank, hback, hat⟩

/-- The quotes of the word go around the path, and into the term. -/
theorem join_searchWords (q : QuoteContext) (hq : contextOf (searchWord ext kind pattern) = q) :
    ShellWord.join (searchWords ext kind pattern) = ("cat ".toList ++ q.mark) ++
      (ext ++ '@' :: (escapeTerm q (searchTerm kind pattern) ++ '@' :: q.mark)) := by
  have hpath : escapeTerm q ext = ext :=
    escapeTerm_of_not_quote (fun c hc => (hext.plain c hc).2.1) q
  have hat : escapeTerm q ['@'] = ['@'] := escapeTerm_of_not_quote (by simp [isQuote]) q
  have hcat : ShellWord.quote "cat".toList = "cat".toList := by decide
  have hword : escapeTerm q (searchWord ext kind pattern) =
      ext ++ ['@'] ++ (escapeTerm q (searchTerm kind pattern) ++ ['@']) := by
    rw [searchWord, ← List.singleton_append, escapeTerm_append, escapeTerm_append,
      escapeTerm_append, hpath, hat, List.append_assoc]
  rw [ShellWord.join, searchWords, List.map_cons, List.map_singleton, Text.join_cons_cons,
    Text.join_singleton, hcat, quote_eq, hq, hword]
  simp

variable {q : QuoteContext} (hq : contextOf (searchWord ext kind pattern) = q)
  (hcomma : ',' ∉ pattern)

include hq hcomma

/-- The group behind the path has the search for its only term. -/
theorem close_searchTerm (n : Nat) :
    OpenGroup.close {} ⟨n, q, ext, (escapeTerm q (searchTerm kind pattern)).reverse⟩ =
      { hidden := false, terms := [searchTerm kind pattern], externalPath := some ext
        quote := q, start := n } := by
  have hmarker : stripMarker ['-', ':'] (escapeTerm q (searchTerm kind pattern)) =
      (false, escapeTerm q (searchTerm kind pattern)) := by
    rw [searchTerm, escapeTerm_append]
    cases kind <;> cases q <;> rfl
  have hbody : unquoteBody q (escapeTerm q (searchTerm kind pattern)) =
      searchTerm kind pattern := by
    rw [← hq]
    exact unquoteBody_escapeTerm fun c hc => by simp [searchWord, hc]
  have hterms : Text.splitUnescaped ',' (searchTerm kind pattern) = [searchTerm kind pattern] := by
    have hlacks := Text.lacks_of_not_mem (not_mem_searchTerm (.inr rfl) hcomma kind) false
    have hjoin := Text.splitUnescaped_join (d := ',') (by decide)
      (Text.stretches_singleton.mpr hlacks)
    rwa [Text.join_singleton] at hjoin
  simp [OpenGroup.close, hmarker, hbody, hterms, hext.slash]

variable (hdelimiter : '@' ∉ pattern)

include hdelimiter

/-- The path is part of the literal, and the path of the group behind it. -/
theorem read_searchWords {raw : RawTemplate}
    (h : RawTemplate.read {} (ShellWord.join (searchWords ext kind pattern)) = .ok raw) : ∃ n, raw =
      { segments := [.literal ("cat ".toList ++ q.mark ++ ext), .slot 0, .literal q.mark]
        groups := [{ hidden := false, terms := [searchTerm kind pattern], externalPath := some ext
                     quote := q, start := n }] } := by
  have hne : q = .single ∨ q = .plain := by
    rw [← hq]
    exact (contextOf_cases _).imp_right And.left
  let r := ("cat ".toList ++ q.mark).foldl (Reader.step {}) {}
  have hfresh : r.Fresh ∧ r.literal.reverse = "cat ".toList ++ q.mark ∧ r.scanner.context = q := by
    obtain rfl | rfl := hne
    · exact ⟨⟨rfl, rfl, rfl, .inr rfl, rfl, rfl⟩, rfl, rfl⟩
    · exact ⟨⟨rfl, rfl, rfl, .inl rfl, rfl, rfl⟩, rfl, rfl⟩
  obtain ⟨hfresh, hliteral, hcontext⟩ := hfresh
  have hcontent : Text.Lacks '@' false (escapeTerm q (searchTerm kind pattern)) :=
    Text.lacks_of_not_mem (fun hmem => not_mem_searchTerm (.inl rfl) hdelimiter kind
      (mem_of_mem_escapeTerm hmem (by decide))) false
  have htail : Text.Lacks '@' false q.mark := by
    obtain rfl | rfl := hne <;> simp [QuoteContext.mark]
  rw [join_searchWords hext q hq, RawTemplate.read, List.foldl_append] at h
  obtain ⟨n, rfl⟩ := Reader.finish_lead (by decide) hfresh hext.glued hcontent htail h
  refine ⟨n, ?_⟩
  rw [hliteral, hcontext, close_searchTerm hext hq hcomma]

omit hq in
/-- What becomes of the group. -/
theorem expandGroup_searchTerm {t : FileTree} {n : Nat} {x : Group}
    (h : expandGroup t '@' { hidden := false, terms := [searchTerm kind pattern]
                             externalPath := some ext, quote := q, start := n } = .ok x) :
    ∃ found nodes, matchesOf t kind pattern (some ext) = .ok found ∧
      List.Forall₂ (fun p r => Path.relative? ext p = some r) found nodes ∧
      x = searchGroup ext q nodes := by
  obtain ⟨es, hes, rfl⟩ := expandGroup_ok h
  simp only [expandTerms] at hes
  obtain ⟨e, he, hes⟩ := exists_of_bind_eq_ok hes
  obtain rfl := Except.ok.inj hes
  obtain ⟨found, nodes, hfound, hshown, rfl⟩ :=
    exists_of_expandTerm hext.untainted hdelimiter hcomma he
  have hbackref : backref? [searchTerm kind pattern] = none := by cases kind <;> rfl
  exact ⟨found, nodes, hfound, hshown, by simp [searchGroup, hbackref]⟩

/-- What building makes of the words: the path has moved from the template into the group. -/
theorem build_searchWords {t : FileTree} {g : Generator}
    (hbuild : build t {} (searchWords ext kind pattern) = .ok g) :
    ∃ found nodes, matchesOf t kind pattern (some ext) = .ok found ∧
      List.Forall₂ (fun p r => Path.relative? ext p = some r) found nodes ∧
      g = searchGenerator ext q nodes := by
  obtain ⟨raw, hbuilt⟩ := Generator.built_of_buildLine hbuild
  obtain ⟨n, rfl⟩ := read_searchWords hext hq hcomma hdelimiter hbuilt.read
  obtain ⟨x, _, hx, hnil, hgroups⟩ := List.forall₂_cons_left_iff.mp hbuilt.groups
  obtain rfl := List.forall₂_nil_left_iff.mp hnil
  obtain ⟨found, nodes, hfound, hshown, rfl⟩ :=
    expandGroup_searchTerm hext hcomma hdelimiter hx
  have htemplate : g.template = (searchGenerator ext q nodes).template := by
    have hcut := Text.dropEnding_append ext ("cat ".toList ++ q.mark)
    rw [hbuilt.template, hgroups]
    simp only [searchGenerator, searchGroup, RawTemplate.absorbAll, absorbing, RawTemplate.absorb,
      List.foldl_cons, List.foldl_nil, if_true, List.getElem?_cons_zero, Option.bind_some,
      cutBefore, hcut]
  have hall : g = ⟨g.template, g.groups⟩ := rfl
  exact ⟨found, nodes, hfound, hshown, by rw [hall, htemplate, hgroups]; rfl⟩

end Line

/-- Each command shows the path, and behind it a match. -/
theorem commands_searchGenerator (ext : Text) {q : QuoteContext} (nodes : List Text) :
    (searchGenerator ext q nodes).commands = nodes.map fun r =>
      "cat ".toList ++ (q.mark ++ (ext ++ quoteTerm q true r) ++ q.mark) := by
  have hbindings : (searchGenerator ext q nodes).bindings = nodes.map fun r => [⟨r, true⟩] := by
    simp [Generator.bindings, searchGenerator, searchGroup, Generator.loop, List.flatMap_map,
      ← List.map_eq_flatMap]
  have hcat : Text.unescapeStructural '@' ("cat ".toList ++ q.mark) = "cat ".toList ++ q.mark := by
    cases q <;> rfl
  have hmark : Text.unescapeStructural '@' q.mark = q.mark := by cases q <;> rfl
  rw [Generator.commands_eq_nested rfl, Generator.nestedCommands_eq, hbindings, List.map_map]
  refine List.map_congr_left fun r _ => ?_
  rw [Function.comp_apply, Generator.commandOf, searchGenerator, render_ofSegments]
  · simp only [filled, List.flatMap_cons, List.flatMap_nil, hcat, hmark]
    simp [Generator.slotTexts, Group.slotText, Group.shownPath, Group.branches, searchGroup]
  · intro k hk
    obtain rfl : k = 0 := by simpa using hk
    exact ⟨_, rfl⟩

/-! ## Splitting -/

/-- A shell reads a word in its quotes as it is, and so it does without quotes when nothing in the
word needs them. -/
theorem spells_mark {q : QuoteContext} {w : Text}
    (h : q = .single ∨ q = .plain ∧ w ≠ [] ∧ ∀ c ∈ w, c ∉ ShellWord.specials) :
    ShellWord.Spells (q.mark ++ escapeTerm q w ++ q.mark) [w] := by
  obtain rfl | ⟨rfl, hne, hspecial⟩ := h
  · exact ShellWord.spells_quoted w
  · have hbare : ShellWord.isBare w = true := by
      simpa [ShellWord.isBare, ShellWord.isSpecial, hne] using hspecial
    have hspells := ShellWord.spells_quote w
    rw [ShellWord.quote, if_pos hbare] at hspells
    rw [ShellWord.escapeTerm_plain_of_not_special hspecial]
    simpa [QuoteContext.mark] using hspells

section Argument

variable {t : FileTree} (ht : t.Named) {kind : NodeKind} {ext pattern : Text} {found : List Text}
  (hext : ExternalPath ext) (hfound : matchesOf t kind pattern (some ext) = .ok found)
  {p r : Text} (hp : p ∈ found) (hr : Path.relative? ext p = some r)

include ht hext hfound hp hr

/-- The path and what is shown of a match come to the program as one argument. -/
theorem split_searchCommand {q : QuoteContext} (hq : contextOf (searchWord ext kind pattern) = q) :
    ShellWord.split ("cat ".toList ++ (q.mark ++ (ext ++ quoteTerm q true r) ++ q.mark)) =
      some ["cat".toList, ext ++ r] := by
  have hcases := contextOf_cases (searchWord ext kind pattern)
  rw [hq] at hcases
  -- without quotes nothing in the word needs them, and so nothing in the match does
  have hbare : q = .plain → ∀ c ∈ ext ++ r, c ∉ ShellWord.specials := by
    rintro rfl
    obtain ⟨-, hbare⟩ := hcases.resolve_left (by simp)
    have hplain : ∀ c ∈ ext ++ pattern, c ∉ ShellWord.specials := fun c hc =>
      ShellWord.not_special_of_isBare hbare (by
        rcases List.mem_append.mp hc with hc | hc <;> simp [searchWord, searchTerm, hc])
    have hmatch := not_special_of_match ht hext.untainted hfound hp hr hext.ne_nil hplain
    intro c hc
    rcases List.mem_append.mp hc with hc | hc
    · exact hplain c (List.mem_append_left _ hc)
    · exact hmatch c hc
  have hwritten : ext ++ quoteTerm q true r = escapeTerm q (ext ++ r) := by
    rw [escapeTerm_append, escapeTerm_of_not_quote (fun c hc => (hext.plain c hc).2.1)]
    obtain rfl | ⟨rfl, -⟩ := hcases
    · rfl
    · have hspace : ' ' ∉ r := fun hmem => hbare rfl ' ' (by simp [hmem]) (by decide)
      rw [quoteTerm_plain true hspace]
  have hcat : ShellWord.Spells "cat".toList ["cat".toList] := rfl
  have hword : ShellWord.Spells (q.mark ++ escapeTerm q (ext ++ r) ++ q.mark) [ext ++ r] :=
    spells_mark (hcases.imp_right fun h => ⟨h.1, by simp [hext.ne_nil], hbare h.1⟩)
  have hline (u : Text) : "cat ".toList ++ u = "cat".toList ++ ' ' :: u := rfl
  rw [hwritten, hline, hcat.split_append_space, hword.split_eq]
  rfl

end Argument

/-- Every command hands the program the external path with what its match adds to the path right
behind it. This names the match when the path ends with a slash, or is the match itself, and
otherwise it does not. -/
theorem words_absorbed {t : FileTree} {settings : Settings} {program ext pattern : Text}
    {kind : NodeKind} {g : Generator} (ht : t.Named) (hshell : settings.shell = .posix program)
    (hinput : settings.input = none) (hstyle : settings.style = {}) (hext : ExternalPath ext)
    (hdelimiter : '@' ∉ pattern) (hcomma : ',' ∉ pattern)
    (hbuild : build t settings.style (searchWords ext kind pattern) = .ok g) :
    ∃ found, matchesOf t kind pattern (some ext) = .ok found ∧
      List.Forall₂
        (fun command p => ∃ r, Path.relative? ext p = some r ∧
          Command.words? settings command = some ["cat".toList, ext ++ r] ∧
          (t.Names kind p (ext ++ r) ↔ ext.getLast? = some '/' ∨ r = []))
        g.commands found := by
  rw [hstyle] at hbuild
  obtain ⟨found, nodes, hfound, hshown, rfl⟩ :=
    build_searchWords hext rfl hcomma hdelimiter hbuild
  have hdirect : Command.isDirect settings = true := by rw [Command.isDirect, hshell, hinput]
  have hall := (List.forall₂_and_left found nodes).mpr ⟨fun p (hp : p ∈ found) => hp, hshown⟩
  refine ⟨found, hfound, ?_⟩
  rw [commands_searchGenerator, List.forall₂_map_left_iff]
  refine hall.flip.imp fun r p h => ?_
  obtain ⟨hp, hr⟩ := h
  refine ⟨r, hr, ?_, ?_⟩
  · rw [Command.words?, if_pos hdirect]
    exact split_searchCommand ht hext hfound hp hr rfl
  · exact names_iff ht hext.untainted hfound hp hr hext.slash

/-! ## A path that ends with a slash, and one that does not -/

/-- A file in a directory in a directory. -/
def nestedTree : FileTree where
  entries := [([['d']], .dir), ([['d'], ['a']], .dir), ([['d'], ['a'], ['x']], .file .empty)]
  workingDir := []

theorem named_nestedTree : nestedTree.Named := by
  unfold FileTree.Named Path.IsName nestedTree
  decide

/-- With the slash the argument is the file. -/
theorem words_behindSlash :
    nestedTree.Named ∧ ExternalPath "d/a/".toList ∧
      build nestedTree {} (searchWords "d/a/".toList .files ['*']) =
        .ok (searchGenerator "d/a/".toList .single [['x']]) ∧
      (searchGenerator "d/a/".toList .single [['x']]).commands.map (Command.words? {}) =
        [some ["cat".toList, "d/a/x".toList]] ∧
      nestedTree.Names .files "d/a/x".toList "d/a/x".toList := by
  have hext : ExternalPath "d/a/".toList := by decide
  -- the search is run by equations of core functions, which stand in different parts of Mathlib
  have hbuild : build nestedTree {} (searchWords "d/a/".toList .files ['*']) =
      .ok (searchGenerator "d/a/".toList .single [['x']]) := by cbv
  obtain ⟨found, hfound, hwords⟩ :=
    @words_absorbed _ {} _ _ _ _ _ named_nestedTree rfl rfl rfl hext (by decide) (by decide) hbuild
  have hmatches : matchesOf nestedTree .files ['*'] (some "d/a/".toList) =
      .ok ["d/a/x".toList] := by cbv
  obtain rfl : found = ["d/a/x".toList] := Except.ok.inj (hfound.symm.trans hmatches)
  rw [commands_searchGenerator] at hwords ⊢
  obtain ⟨r, hr, hargument, hnames⟩ := (List.forall₂_cons.mp hwords).1
  obtain rfl : ['x'] = r := by
    have hrelative : Path.relative? "d/a/".toList "d/a/x".toList = some ['x'] := by decide
    exact Option.some.inj (hrelative.symm.trans hr)
  refine ⟨named_nestedTree, hext, hbuild, ?_, hnames.mpr (.inl (by decide))⟩
  rw [List.map_singleton, List.map_singleton, hargument]
  rfl

/-- Without it the last name of the path runs into that of the file, and nothing has such a name. -/
theorem not_found_absorbed : nestedTree.Named ∧
    ¬ ∀ (ext pattern : Text) (kind : NodeKind) (g : Generator), ExternalPath ext →
      '@' ∉ pattern → ',' ∉ pattern →
      build nestedTree {} (searchWords ext kind pattern) = .ok g →
        ∀ command ∈ g.commands, ∃ p k, Command.words? {} command = some ["cat".toList, p] ∧
          nestedTree.metadata p = .ok k ∧ kind.accepts k = true := by
  refine ⟨named_nestedTree, fun hall => ?_⟩
  have hext : ExternalPath "d/a".toList := by decide
  have hbuild : build nestedTree {} (searchWords "d/a".toList .files ['*']) =
      .ok (searchGenerator "d/a".toList .single [['x']]) := by cbv
  have hcommands : (searchGenerator "d/a".toList .single [['x']]).commands =
      ["cat 'd/ax'".toList] := by
    rw [commands_searchGenerator]
    rfl
  obtain ⟨p, k, hwords, hnode, -⟩ := hall _ _ _ _ hext (by decide) (by decide) hbuild
    "cat 'd/ax'".toList (by rw [hcommands]; exact List.mem_singleton_self _)
  have hargument : Command.words? {} "cat 'd/ax'".toList =
      some ["cat".toList, "d/ax".toList] := by decide
  obtain rfl : p = "d/ax".toList := by
    rw [hargument] at hwords
    simpa using hwords.symm
  have hmissing : nestedTree.metadata "d/ax".toList = .error (.system .notFound) := by cbv
  rw [hmissing] at hnode
  exact absurd hnode (by simp)

end Fanout
