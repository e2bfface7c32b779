import Fanout.Directive.Nodes
import Fanout.Proofs.Escapes
import Fanout.Proofs.Stops
import Fanout.Proofs.Searches

/-!
# Paths in front of a search

A search behind an external path looks for the pattern in that directory, and what it shows is the
rest of each match. So the directory with its slash, and what is shown behind it, lead to the match.

* `Untainted`: the external path has no wildcard and no backslash, so it is meant as it is written.
* `componentTexts_closed`: what a search behind such a path is taken apart into.
* `dir_of_relative_nil`: a match of which nothing is left to show is a directory.
* `names_iff`: when the directory and what is shown name the match.
-/

namespace Fanout

namespace Text

/-- Nothing is escaped in a text without a backslash. -/
theorem isEscaped_of_not_mem {t : Text} (h : '\\' ∉ t) (n : Nat) : isEscaped t n = false := by
  unfold isEscaped before?
  by_cases hn : byteLength (upTo n t) = n
  · have hdangles : dangles false (upTo n t) = false := dangles_of_not_mem fun hmem =>
      h (by rw [← upTo_append_beyond n t]; exact List.mem_append_left _ hmem)
    rw [if_pos hn]
    rwa [dangles_eq_odd] at hdangles
  · rw [if_neg hn]

end Text

namespace Glob

/-! ## Escaped texts -/

theorem Pattern.escape_append (t u : Text) :
    Pattern.escape (t ++ u) = Pattern.escape t ++ Pattern.escape u := List.flatMap_append

/-- Escaping adds brackets and no other characters. -/
theorem mem_escapeChar {c x : Char} (h : x ∈ escapeChar c) : x = c ∨ x = '[' ∨ x = ']' := by
  unfold escapeChar at h
  split_ifs at h <;> simp at h <;> tauto

theorem splitOn_escape (t : Text) :
    Text.splitOn '/' (Pattern.escape t) = (Text.splitOn '/' t).map Pattern.escape := by
  induction t with
  | nil => rfl
  | cons c t ih =>
    rw [Pattern.escape_cons, Text.splitOn]
    split_ifs with hc
    · have hslash : escapeChar c ++ Pattern.escape t = [] ++ '/' :: Pattern.escape t := by
        rw [hc]
        rfl
      rw [hslash, Text.splitOn_append_sep, ih]
      rfl
    · have hnot : '/' ∉ escapeChar c := fun hmem => by
        rcases mem_escapeChar hmem with h | h | h
        · exact hc h.symm
        · exact absurd h (by decide)
        · exact absurd h (by decide)
      rw [Text.splitOn_append_of_not_mem hnot, ih]
      cases hs : Text.splitOn '/' t with
      | nil => exact absurd hs (Text.splitOn_ne_nil '/' t)
      | cons p ps => rfl

/-- Only a slash is escaped to something that ends with one. -/
theorem getLast?_escape (t : Text) :
    (Pattern.escape t).getLast? = some '/' ↔ t.getLast? = some '/' := by
  rcases List.eq_nil_or_concat t with rfl | ⟨u, c, rfl⟩
  · simp [Pattern.escape]
  · have hlast : Pattern.escape [c] = escapeChar c := by simp [Pattern.escape]
    rw [List.concat_eq_append, Pattern.escape_append, hlast, escapeChar, List.getLast?_concat]
    split_ifs with hc
    · have hne : c ≠ '/' := by
        rintro rfl
        exact absurd hc (by decide)
      rw [List.getLast?_append_of_ne_nil _ (List.cons_ne_nil _ _)]
      simp [hne]
    · rw [List.getLast?_concat]

/-! ## Untainted paths -/

/-- The path has no wildcard and no backslash. -/
def Untainted (ext : Text) : Prop := ∀ c ∈ ext, isWildcard c = false ∧ c ≠ '\\'

section Untainted

variable {ext : Text} (h : Untainted ext)

include h

theorem hasWildcards_of_untainted : hasWildcards ext = false := by
  have hfrom (s : Scanner) : hasWildcardsFrom s ext = false := by
    induction ext generalizing s with
    | nil => rfl
    | cons c t ih =>
      obtain ⟨hc, ht⟩ := List.forall_mem_cons.mp h
      rw [hasWildcardsFrom, hc.1, Bool.and_false, Bool.false_or, ih ht]
  exact hfrom .start

theorem dropWildcardEscapes_of_untainted : dropWildcardEscapes ext = ext := by
  rw [dropWildcardEscapes_eq_dropBefore]
  apply Text.dropBefore_of_not_mem
  intro hmem
  exact (h _ hmem).2 rfl

theorem searchPattern_of_untainted {e : Text} (he : Path.closed ext = e ++ ['/']) (pattern : Text) :
    searchPattern (some ext) pattern = Pattern.escape e ++ '/' :: patternOf pattern := by
  have hescaped : '\\' ∉ Pattern.escape ext := fun hmem => by
    obtain ⟨c, hc, hmem⟩ := List.mem_flatMap.mp hmem
    rcases mem_escapeChar hmem with hback | hback | hback
    · exact (h c hc).2 hback.symm
    · exact absurd hback (by decide)
    · exact absurd hback (by decide)
  have hclosed : joinExternal (Pattern.escape ext) (patternOf pattern) =
      Pattern.escape (Path.closed ext) ++ patternOf pattern := by
    unfold joinExternal Path.closed
    rw [Text.isEscaped_of_not_mem hescaped, Bool.not_false, Bool.and_true]
    by_cases hslash : ext.getLast? = some '/'
    · rw [if_pos hslash, if_pos (by simpa using (getLast?_escape ext).mpr hslash)]
    · rw [if_neg hslash, if_neg (by simpa using fun hl => hslash ((getLast?_escape ext).mp hl)),
        Pattern.escape_append, List.append_assoc]
      rfl
  simp only [searchPattern, hasWildcards_of_untainted h, dropWildcardEscapes_of_untainted h,
    Bool.false_eq_true, if_false]
  rw [hclosed, he, Pattern.escape_append, List.append_assoc]
  rfl

end Untainted

theorem patternOf_ne_nil {pattern : Text} (h : pattern ≠ []) : patternOf pattern ≠ [] := by
  fun_cases patternOf pattern with
  | case1 c t =>
    intro hnil
    have hhead := (List.append_eq_nil_iff.mp hnil).1
    split_ifs at hhead with hc
    unfold escapeChar at hhead
    split_ifs at hhead
  | case2 => simp
  | case3 => exact absurd rfl h

/-- Without a backslash a pattern is meant as it is written. -/
theorem patternOf_of_not_mem {pattern : Text} (h : '\\' ∉ pattern) : patternOf pattern = pattern := by
  induction pattern with
  | nil => rfl
  | cons c t ih =>
    rw [List.mem_cons, not_or] at h
    rw [patternOf.eq_2 _ _ (fun d u hd => absurd hd.symm h.1), ih h.2]

/-! ## What a search behind a path is taken apart into -/

/-- The components of a pattern that begins at no root: one slash at the end counts for nothing. -/
def trailing (pattern : Text) : List Text :=
  if (Path.pieces pattern).getLast? = some [] then (Path.pieces pattern).dropLast
  else Path.pieces pattern

theorem trailing_ne_nil {pattern : Text} (h : pattern ≠ []) : trailing pattern ≠ [] := by
  unfold trailing
  split_ifs with hlast
  · obtain ⟨ps, hps⟩ := List.getLast?_eq_some_iff.mp hlast
    rw [hps, List.dropLast_concat]
    rintro rfl
    refine h ?_
    rw [← Text.intercalate_splitOn '/' pattern, show Text.splitOn '/' pattern = [[]] from hps]
    rfl
  · exact Text.splitOn_ne_nil '/' pattern

theorem mem_pieces_of_trailing {pattern x : Text} (h : x ∈ trailing pattern) :
    x ∈ Path.pieces pattern := by
  unfold trailing at h
  split_ifs at h
  · exact (List.dropLast_sublist _).subset h
  · exact h

theorem trailing_append (e pattern : Text) :
    trailing (Pattern.escape e ++ '/' :: pattern) =
      (Path.pieces e).map Pattern.escape ++ trailing pattern := by
  have hne : Path.pieces pattern ≠ [] := Text.splitOn_ne_nil '/' pattern
  have hpieces : Path.pieces (Pattern.escape e ++ '/' :: pattern) =
      (Path.pieces e).map Pattern.escape ++ Path.pieces pattern := by
    rw [Path.pieces, Text.splitOn_append_sep, splitOn_escape]
    rfl
  unfold trailing
  rw [hpieces, List.getLast?_append_of_ne_nil _ hne, List.dropLast_append_of_ne_nil hne]
  split_ifs <;> rfl

theorem componentTexts_eq (pattern : Text) : componentTexts pattern =
    if (if Path.isAbsolute pattern then pattern.tail else pattern).isEmpty then [[]]
    else trailing (if Path.isAbsolute pattern then pattern.tail else pattern) := rfl

/-- Escaping keeps a path at the root or away from it. -/
theorem isAbsolute_escape {e : Text} (hne : e ≠ []) (rest : Text) :
    Path.isAbsolute (Pattern.escape e ++ rest) = Path.isAbsolute e := by
  obtain ⟨c, u, rfl⟩ := List.exists_cons_of_ne_nil hne
  rw [Pattern.escape_cons, escapeChar]
  split_ifs with hc
  · have hslash : c ≠ '/' := by
      rintro rfl
      exact absurd hc (by decide)
    simp [Path.isAbsolute, hslash]
  · rfl

/-- The pieces of a directory that begins at no root are escaped, and behind them come those of the
pattern. -/
theorem componentTexts_relative {e : Text} (hne : e ≠ []) (h : Path.isAbsolute e = false)
    (pattern : Text) : componentTexts (Pattern.escape e ++ '/' :: pattern) =
      (Path.pieces e).map Pattern.escape ++ trailing pattern := by
  have hrest : (Pattern.escape e ++ '/' :: pattern).isEmpty = false := by simp
  rw [componentTexts_eq]
  simp only [isAbsolute_escape hne, h, Bool.false_eq_true, if_false]
  rw [hrest, trailing_append]
  rfl

/-- The same of any directory, where a slash at the root is none of the pieces. -/
theorem componentTexts_closed (e pattern : Text) :
    ∃ base, componentTexts (Pattern.escape e ++ '/' :: pattern) =
        base.map Pattern.escape ++ trailing pattern ∧
      Path.kept base = Path.kept (Path.pieces e) ∧ ∀ x ∈ base, x ∈ Path.pieces e := by
  have hrest (u : Text) : (Pattern.escape u ++ '/' :: pattern).isEmpty = false := by simp
  rw [componentTexts_eq]
  cases e with
  | nil =>
    have habsolute : Path.isAbsolute (Pattern.escape [] ++ '/' :: pattern) = true := rfl
    have htail : (Pattern.escape [] ++ '/' :: pattern).tail = pattern := rfl
    rw [if_pos habsolute, htail]
    cases pattern with
    | nil => exact ⟨[[]], rfl, rfl, fun x hx => hx⟩
    | cons c t => exact ⟨[], rfl, rfl, fun x hx => absurd hx List.not_mem_nil⟩
  | cons c u =>
    by_cases hc : c = '/'
    · have habsolute : Path.isAbsolute (Pattern.escape (c :: u) ++ '/' :: pattern) = true := by
        rw [hc]
        rfl
      have htail : (Pattern.escape (c :: u) ++ '/' :: pattern).tail =
          Pattern.escape u ++ '/' :: pattern := by
        rw [hc]
        rfl
      have hpieces : Path.pieces (c :: u) = [] :: Path.pieces u := by
        rw [hc, Path.pieces, Text.splitOn, if_pos rfl, Path.pieces]
      rw [if_pos habsolute, htail, hrest, trailing_append, hpieces]
      exact ⟨Path.pieces u, rfl, (Path.kept_cons_of_void rfl _).symm,
        fun x hx => List.mem_cons_of_mem _ hx⟩
    · have hrelative : Path.isAbsolute (c :: u) = false := by simpa [Path.isAbsolute] using hc
      have htexts := componentTexts_relative (List.cons_ne_nil c u) hrelative pattern
      rw [componentTexts_eq] at htexts
      exact ⟨Path.pieces (c :: u), htexts, rfl, fun x hx => hx⟩

/-- The pattern of an escaped piece that counts is solid. -/
theorem solid_of_escape {x : Text} {p : Pattern} (h : Pattern.ofText (Pattern.escape x) = .ok p)
    (hslash : '/' ∉ x) (hx : Path.isVoid x = false) : p.Solid := by
  obtain ⟨p', hp', hspells⟩ := Pattern.exists_spells_escape x
  obtain rfl : p = p' := Except.ok.inj (h.symm.trans hp')
  refine ⟨hspells.isRecursive, fun name hname => ?_⟩
  rw [(hspells.matches_iff name).mp hname, stepCount, Path.pieces, Text.splitOn_of_not_mem hslash,
    Path.kept_cons_of_not_void hx]
  exact Nat.succ_pos _

theorem adds_zero {ps : List Pattern} (h : ps ≠ []) : Adds 0 ps := by
  induction ps with
  | nil => exact absurd rfl h
  | cons p ps ih =>
    by_cases hps : ps = []
    · rw [hps]
      exact .last p
    · exact .other p (ih hps)

/-- The patterns add the steps of the directory, and then at least one more. -/
theorem adds_of_base {base rest : List Text} {ps : List Pattern}
    (h : List.Forall₂ (fun x p => Pattern.ofText x = .ok p) (base.map Pattern.escape ++ rest) ps)
    (hbase : ∀ x ∈ base, '/' ∉ x) (hrest : rest ≠ []) : Adds (Path.kept base).length ps := by
  induction base generalizing ps with
  | nil =>
    refine adds_zero ?_
    rintro rfl
    exact hrest (List.forall₂_nil_right_iff.mp h)
  | cons x base ih =>
    obtain ⟨hslash, hbase⟩ := List.forall_mem_cons.mp hbase
    obtain ⟨p, ps, hp, hps, rfl⟩ := List.forall₂_cons_left_iff.mp h
    cases hx : Path.isVoid x with
    | true =>
      rw [Path.kept_cons_of_void hx]
      exact .other p (ih hps hbase)
    | false =>
      rw [Path.kept_cons_of_not_void hx]
      exact .solid (solid_of_escape hp hslash hx) (ih hps hbase)

theorem exists_of_mem_forall₂ {α β : Type} {R : α → β → Prop} {xs : List α} {ys : List β}
    (h : List.Forall₂ R xs ys) {y : β} (hy : y ∈ ys) : ∃ x ∈ xs, R x y := by
  induction h with
  | nil => exact absurd hy List.not_mem_nil
  | @cons x z xs ys hxz _ ih =>
    rcases List.mem_cons.mp hy with rfl | hy
    · exact ⟨x, List.mem_cons_self, hxz⟩
    · obtain ⟨w, hw, hr⟩ := ih hy
      exact ⟨w, List.mem_cons_of_mem _ hw, hr⟩

/-! ## Matches -/

section Matches

variable {t : FileTree} (ht : t.Named) {ext pattern : Text} {findings : List Finding}
  (hext : Untainted ext) (hsearch : search t (searchPattern (some ext) pattern) = .ok findings)
  {p : Text} (hp : .hit p ∈ findings)

include ht hext hsearch hp

/-- A match of which nothing is left to show is a directory. -/
theorem dir_of_relative_nil (hne : ext ≠ []) (hr : Path.relative? ext p = some [])
    {k : NodeType} (hk : t.metadata p = .ok k) : k = .dir := by
  obtain ⟨e, he, hkept, -, -⟩ := Path.exists_closed_eq ext
  rw [searchPattern_of_untainted hext he] at hsearch
  obtain ⟨ps, q, hps, hleads, rfl, hslash⟩ := leads_of_hit ht hsearch hp
  by_cases hnil : pattern = []
  · -- the search ends with the slash, so it finds directories only
    have hdir := isDir_of_leads hleads id (hslash (by simp [hnil, patternOf]))
    rw [FileTree.isDir_iff] at hdir
    exact (Except.ok.inj (hdir.symm.trans hk)).symm
  · -- the pattern adds a piece to the directory, and nothing is left of it
    have hpattern := patternOf_ne_nil hnil
    obtain ⟨base, htexts, hbase, hmem⟩ := componentTexts_closed e (patternOf pattern)
    rw [htexts] at hps
    have hadds := adds_of_base (forall₂_of_mapM hps)
      (fun x hx => Text.not_mem_of_mem_splitOn (hmem x hx)) (trailing_ne_nil hpattern)
    obtain ⟨-, hvoid | hlt⟩ := stepCount_of_leads hleads hadds
    · exact FileTree.dir_of_endsVoid hk hvoid
    · obtain ⟨hdrop, -⟩ := Path.kept_relative (Path.components_ne_nil hne) hr
      have hnone : (Path.kept (Path.pieces q.path)).drop (Path.body ext).length = [] := hdrop.symm
      rw [List.drop_eq_nil_iff, Path.body_eq, List.length_map, ← hkept, ← hbase] at hnone
      have hcount : stepCount q.path = (Path.kept (Path.pieces q.path)).length := rfl
      omega

/-- Without special characters in the directory and the pattern there are none in a match. -/
theorem not_special_of_hit (hplain : ∀ c ∈ ext ++ pattern, c ∉ ShellWord.specials) :
    ∀ c ∈ p, c ∉ ShellWord.specials := by
  obtain ⟨e, he, -, -, -⟩ := Path.exists_closed_eq ext
  have hdirectory : ∀ c ∈ e, c ∉ ShellWord.specials := fun c hc => by
    rcases Path.mem_closed (he ▸ List.mem_append_left _ hc) with hext | rfl
    · exact hplain c (List.mem_append_left _ hext)
    · decide
  have hpattern : ∀ c ∈ pattern, c ∉ ShellWord.specials := fun c hc =>
    hplain c (List.mem_append_right _ hc)
  rw [searchPattern_of_untainted hext he,
    patternOf_of_not_mem fun hback => hpattern _ hback (by decide)] at hsearch
  obtain ⟨ps, q, hps, hleads, rfl, -⟩ := leads_of_hit ht hsearch hp
  obtain ⟨base, htexts, -, hmem⟩ := componentTexts_closed e pattern
  rw [htexts] at hps
  refine forall_mem_of_leads (by decide) hleads (fun r hr => ?_) ?_
  · obtain ⟨text, htext, hread⟩ := exists_of_mem_forall₂ (forall₂_of_mapM hps) hr
    have hspells : ∃ x, r.Spells x ∧ ∀ c ∈ x, c ∉ ShellWord.specials := by
      rcases List.mem_append.mp htext with htext | htext
      · obtain ⟨x, hx, rfl⟩ := List.mem_map.mp htext
        obtain ⟨r', hr', hspells⟩ := Pattern.exists_spells_escape x
        obtain rfl : r = r' := Except.ok.inj (hread.symm.trans hr')
        exact ⟨x, hspells, fun c hc => hdirectory c (Text.mem_of_mem_splitOn (hmem x hx) hc)⟩
      · have hclean : ∀ c ∈ text, c ∉ ShellWord.specials := fun c hc =>
          hpattern c (Text.mem_of_mem_splitOn (mem_pieces_of_trailing htext) hc)
        have hread' : ∀ c ∈ text, c ∉ ['?', '*', '['] := fun c hc hbad => hclean c hc (by
          simp only [List.mem_cons, List.not_mem_nil, or_false] at hbad
          obtain rfl | rfl | rfl := hbad <;> decide)
        obtain ⟨r', hr', hspells⟩ := Pattern.exists_spells_plain hread'
        obtain rfl : r = r' := Except.ok.inj (hread.symm.trans hr')
        exact ⟨text, hspells, hclean⟩
    obtain ⟨x, hspells, hclean⟩ := hspells
    refine ⟨hspells.isRecursive, fun name hname => ?_⟩
    rw [(hspells.matches_iff name).mp hname]
    exact hclean
  · unfold origin Spot.at
    split_ifs <;> simp <;> decide

end Matches

end Glob

/-! ## Nodes -/

/-- What is selected was found, and is of the kind. -/
theorem mem_of_selectNodes {t : FileTree} {kind : NodeKind} {findings : List Glob.Finding}
    {found : List Text} (h : selectNodes t kind findings = .ok found) {p : Text} (hp : p ∈ found) :
    .hit p ∈ findings ∧ ∃ k, t.metadata p = .ok k ∧ kind.accepts k = true := by
  induction findings generalizing found with
  | nil =>
    obtain rfl := Except.ok.inj h
    exact absurd hp List.not_mem_nil
  | cons x findings ih =>
    cases x with
    | unreadable q => exact absurd h (by simp [selectNodes])
    | hit q =>
      rw [selectNodes] at h
      cases hq : t.metadata q with
      | error f => simp [hq] at h
      | ok k =>
        simp only [hq] at h
        obtain ⟨more, hmore, h⟩ := exists_of_bind_eq_ok h
        obtain rfl := Except.ok.inj h
        have hrest (hp : p ∈ more) : .hit p ∈ Glob.Finding.hit q :: findings ∧
            ∃ k, t.metadata p = .ok k ∧ kind.accepts k = true := by
          obtain ⟨hhit, hkind⟩ := ih hmore hp
          exact ⟨List.mem_cons_of_mem _ hhit, hkind⟩
        split_ifs at hp with haccepts
        · rcases List.mem_cons.mp hp with rfl | hp
          · exact ⟨List.mem_cons_self, k, hq, haccepts⟩
          · exact hrest hp
        · exact hrest hp

/-- A match was found by the search, and is of the kind. -/
theorem mem_of_matchesOf {t : FileTree} {kind : NodeKind} {pattern : Text} {external : Option Text}
    {found : List Text} (h : matchesOf t kind pattern external = .ok found) :
    ∃ findings, Glob.search t (searchPattern external pattern) = .ok findings ∧
      ∀ p ∈ found, .hit p ∈ findings ∧ ∃ k, t.metadata p = .ok k ∧ kind.accepts k = true := by
  unfold matchesOf at h
  simp only at h
  cases hsearch : Glob.search t (searchPattern external pattern) with
  | error f => simp [hsearch] at h
  | ok findings =>
    simp only [hsearch] at h
    obtain ⟨selected, hselected, h⟩ := exists_of_bind_eq_ok h
    split_ifs at h
    obtain rfl := Except.ok.inj h
    refine ⟨findings, rfl, fun p hp => mem_of_selectNodes hselected ?_⟩
    exact (List.mergeSort_perm _ _).subset hp

/-- The path has the steps of the match, and leads to its node, one of the kind, unless it is too
long for a path. -/
structure FileTree.Names (t : FileTree) (kind : NodeKind) (found p : Text) : Prop where
  accepted : ∃ k, t.metadata found = .ok k ∧ kind.accepts k = true
  steps : Path.components p = Path.components found
  node : Text.byteLength p < maxPath → t.metadata p = t.metadata found

section Names

variable {t : FileTree} (ht : t.Named) {kind : NodeKind} {ext pattern : Text} {found : List Text}
  (hext : Glob.Untainted ext) (hfound : matchesOf t kind pattern (some ext) = .ok found)
  {p r : Text} (hp : p ∈ found) (hr : Path.relative? ext p = some r)

include ht hext hfound hp hr

/-- A path with the steps of a match leads to it. If it ends so that it only leads to directories,
then nothing may be left to show of the match. -/
theorem names_of_components (hne : ext ≠ []) {q : Text}
    (hsteps : Path.components q = Path.components p) (hend : Path.EndsVoid (Path.pieces q) → r = []) :
    t.Names kind p q := by
  obtain ⟨findings, hsearch, hall⟩ := mem_of_matchesOf hfound
  obtain ⟨hhit, k, hk, haccepts⟩ := hall p hp
  have hq : q ≠ [] := by
    rintro rfl
    have hleads := (Path.exists_of_relative (Path.components_ne_nil hne) hr).1
    rw [← hsteps] at hleads
    exact Path.components_ne_nil hne (List.prefix_nil.mp hleads)
  refine ⟨⟨k, hk, haccepts⟩, hsteps, fun hlength => ?_⟩
  rw [hk]
  refine FileTree.metadata_congr hk hsteps hq hlength fun hvoid => ?_
  rw [hend hvoid] at hr
  exact Glob.dir_of_relative_nil ht hext hsearch hhit hne hr hk

/-- The directory, and right behind it what is shown, name the match if the directory ends with a
slash or nothing is shown, and otherwise they do not. -/
theorem names_iff (hslash : '/' ∈ ext) :
    t.Names kind p (ext ++ r) ↔ ext.getLast? = some '/' ∨ r = [] := by
  have hne : ext ≠ [] := List.ne_nil_of_mem hslash
  have hsteps := Path.components_append_iff hslash hr
  refine ⟨fun h => hsteps.mp h.steps, fun h => ?_⟩
  refine names_of_components ht hext hfound hp hr hne (hsteps.mpr h) fun hvoid => ?_
  obtain hlast | hnil := h
  · obtain ⟨-, hnil | ⟨-, hnot⟩⟩ := Path.kept_relative (Path.components_ne_nil hne) hr
    · exact hnil
    · obtain ⟨e, rfl⟩ := List.getLast?_eq_some_iff.mp hlast
      rw [List.append_assoc, List.singleton_append, Path.pieces, Text.splitOn_append_sep] at hvoid
      exact absurd ((Path.endsVoid_append (Text.splitOn_ne_nil '/' r)).mp hvoid) hnot
  · exact hnil

/-- What is shown of a match has no special characters when the directory and the pattern have
none. -/
theorem not_special_of_match (hne : ext ≠ [])
    (hplain : ∀ c ∈ ext ++ pattern, c ∉ ShellWord.specials) : ∀ c ∈ r, c ∉ ShellWord.specials := by
  obtain ⟨findings, hsearch, hall⟩ := mem_of_matchesOf hfound
  have hclean := Glob.not_special_of_hit ht hext hsearch (hall p hp).1 hplain
  intro c hc
  rcases Path.mem_of_relative (Path.components_ne_nil hne) hr hc with hc | rfl
  · exact hclean c hc
  · decide

end Names

end Fanout
