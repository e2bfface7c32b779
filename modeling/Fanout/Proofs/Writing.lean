import Fanout.Proofs.Reading

/-!
# Writing values as terms

Any row of values can be the terms of a group. Each delimiter and each comma in a value gets a
backslash, and commas part the values; reading takes all of it off again. Backslashes of a value
stand for themselves as long as they cannot be taken for those: in front of a comma, a delimiter or
a quote, and at the end of the value, they have to come in pairs.

* `Text.Frees p`: no character with `p` is escaped in a text. It goes along the text with the escapes
  (`frees_cons`), so it can be decided.
* `writeTerm`, `writeBody`: a value as a term, and values as the body of a group.
* `Writable`: the values that can be written; `unescape_writeTerm` takes the backslashes off again.
* `read_written`: the group with the body has the values for its terms.
-/

namespace Fanout

namespace Text

/-! ## Characters that are not escaped -/

/-- No character with `p` is escaped in the text, when `e` tells whether its first one is. -/
def Frees (p : Char → Bool) (e : Bool) (t : Text) : Prop :=
  ∀ u c w, t = u ++ c :: w → p c = true → dangles e u = false

section Frees

variable {p : Char → Bool} {e : Bool}

theorem frees_nil : Frees p e [] := fun u c w h => absurd h (by simp)

theorem frees_cons {c : Char} {t : Text} :
    Frees p e (c :: t) ↔ (p c = true → e = false) ∧ Frees p (escapesNext e c) t := by
  constructor
  · intro h
    refine ⟨h [] c t rfl, fun u x w ht => ?_⟩
    rw [ht] at h
    exact h (c :: u) x w rfl
  · rintro ⟨hc, ht⟩ u x w h hx
    cases u with
    | nil =>
      obtain ⟨rfl, -⟩ := List.cons.inj h
      exact hc hx
    | cons y u =>
      obtain ⟨rfl, rfl⟩ := List.cons.inj h
      exact ht u x w rfl hx

instance decidableFrees (p : Char → Bool) : (e : Bool) → (t : Text) → Decidable (Frees p e t)
  | _, [] => isTrue frees_nil
  | e, c :: t =>
    have := decidableFrees p (escapesNext e c) t
    decidable_of_iff _ frees_cons.symm

theorem frees_append {t u : Text} :
    Frees p e (t ++ u) ↔ Frees p e t ∧ Frees p (dangles e t) u := by
  induction t generalizing e with
  | nil => simp [frees_nil]
  | cons c t ih => rw [List.cons_append, frees_cons, frees_cons, ih, dangles_cons, and_assoc]

theorem Frees.mono {q : Char → Bool} (h : Frees p e t) (hq : ∀ c, q c = true → p c = true) :
    Frees q e t := fun u c w ht hc => h u c w ht (hq c hc)

/-- Where nothing is escaped there is no backslash to drop. -/
theorem unescape_of_frees {t : Text} (h : Frees p false t) : unescape p t = t := by
  fun_induction unescape p t with
  | case1 c t hc ih =>
    obtain ⟨-, hpair⟩ := frees_cons.mp h
    exact absurd ((frees_cons.mp hpair).1 hc) (by simp [escapesNext])
  | case2 c t hc ih =>
    obtain ⟨-, hpair⟩ := frees_cons.mp h
    have hrest := (frees_cons.mp hpair).2
    rw [ih (by simpa [escapesNext] using hrest)]
  | case3 c t hnot ih =>
    obtain ⟨-, hrest⟩ := frees_cons.mp h
    rcases plain_or_last hnot with hc | ⟨rfl, rfl⟩
    · rw [ih (by rwa [escapesNext_of_ne hc] at hrest)]
    · rfl
  | case4 => rfl

end Frees

end Text

/-! ## Writing -/

/-- The value as a term of a group: a backslash in front of each delimiter and each comma. -/
def writeTerm (d : Char) (v : Text) : Text :=
  v.flatMap fun c => if Text.isStructural d c then ['\\', c] else [c]

/-- The values as the body of a group. -/
def writeBody (d : Char) (values : List Text) : Text := Text.join [','] (values.map (writeTerm d))

/-- The values as a group, on a line of its own. -/
def writeGroup (d : Char) (values : List Text) : Text := d :: (writeBody d values ++ [d])

/-- Backslashes come in pairs in front of every comma, delimiter and quote, and at the end. -/
def Writable (d : Char) (v : Text) : Prop :=
  (∀ u c w, v = u ++ c :: w → (Text.isStructural d c || isQuote c) = true →
    Text.trailingBackslashes u % 2 = 0) ∧ Text.trailingBackslashes v % 2 = 0

/-- None of these characters is escaped in such a value, and nothing behind it. -/
theorem writable_iff {d : Char} {v : Text} : Writable d v ↔
    Text.Frees (fun c => Text.isStructural d c || isQuote c) false v ∧
      Text.dangles false v = false := by
  simp only [Writable, Text.Frees, Text.even_trailingBackslashes_iff]

instance (d : Char) (v : Text) : Decidable (Writable d v) := decidable_of_iff _ writable_iff.symm

section Delimiter

variable {d : Char} (hd : isDelimiter d = true)

include hd

theorem ne_backslash_of_isStructural {c : Char} (h : Text.isStructural d c = true) : c ≠ '\\' := by
  rintro rfl
  have hne := ne_backslash_of_isDelimiter hd
  simp [Text.isStructural, hne.symm] at h

theorem isQuote_of_isStructural {c : Char} (h : Text.isStructural d c = true) :
    isQuote c = false := by
  have ha := ne_apostrophe_of_isDelimiter hd
  have hq := ne_quote_of_isDelimiter hd
  obtain rfl | rfl : c = d ∨ c = ',' := by simpa [Text.isStructural] using h
  · simp [isQuote, ha, hq]
  · rfl

omit hd in
theorem writeTerm_of_structural {c : Char} (h : Text.isStructural d c = true) (v : Text) :
    writeTerm d (c :: v) = '\\' :: c :: writeTerm d v := by
  simp [writeTerm, h]

omit hd in
theorem writeTerm_of_not_structural {c : Char} (h : ¬Text.isStructural d c = true) (v : Text) :
    writeTerm d (c :: v) = c :: writeTerm d v := by
  simp [writeTerm, h]

/-- A written term escapes what is behind it only if the value does. -/
theorem dangles_writeTerm {e : Bool} {v : Text} (h : Text.Frees (Text.isStructural d) e v) :
    Text.dangles e (writeTerm d v) = Text.dangles e v := by
  induction v generalizing e with
  | nil => rfl
  | cons c v ih =>
    obtain ⟨hc, hv⟩ := Text.frees_cons.mp h
    have hrest := ih hv
    by_cases hs : Text.isStructural d c = true
    · rw [Text.escapesNext_of_ne (ne_backslash_of_isStructural hd hs)] at hrest
      rw [writeTerm_of_structural hs, hc hs, Text.dangles_cons, Text.dangles_cons, Text.dangles_cons,
        Text.escapesNext_of_ne (ne_backslash_of_isStructural hd hs),
        Text.escapesNext_of_ne (ne_backslash_of_isStructural hd hs), hrest]
    · rw [writeTerm_of_not_structural hs, Text.dangles_cons, Text.dangles_cons, hrest]

/-- A written term has no delimiter and no comma that counts. -/
theorem lacks_writeTerm {x : Char} (hx : Text.isStructural d x = true) {e : Bool} {v : Text}
    (h : Text.Frees (Text.isStructural d) e v) : Text.Lacks x e (writeTerm d v) := by
  induction v generalizing e with
  | nil => exact True.intro
  | cons c v ih =>
    obtain ⟨hc, hv⟩ := Text.frees_cons.mp h
    have hrest := ih hv
    by_cases hs : Text.isStructural d c = true
    · have hxb := ne_backslash_of_isStructural hd hx
      rw [Text.escapesNext_of_ne (ne_backslash_of_isStructural hd hs)] at hrest
      rw [writeTerm_of_structural hs, hc hs, Text.lacks_cons, Text.lacks_cons,
        Text.escapesNext_of_ne (ne_backslash_of_isStructural hd hs)]
      exact ⟨fun h => absurd h.symm hxb, fun _ => rfl, hrest⟩
    · rw [writeTerm_of_not_structural hs]
      refine ⟨?_, hrest⟩
      rintro rfl
      exact absurd hx hs

/-- The backslashes that are written escape no quote. -/
theorem frees_writeTerm {e : Bool} {v : Text}
    (h : Text.Frees (fun c => Text.isStructural d c || isQuote c) e v) :
    Text.Frees isQuote e (writeTerm d v) := by
  induction v generalizing e with
  | nil => exact Text.frees_nil
  | cons c v ih =>
    obtain ⟨hc, hv⟩ := Text.frees_cons.mp h
    have hrest := ih hv
    by_cases hs : Text.isStructural d c = true
    · have hquote := isQuote_of_isStructural hd hs
      rw [Text.escapesNext_of_ne (ne_backslash_of_isStructural hd hs)] at hrest
      rw [writeTerm_of_structural hs, hc (by simp [hs]), Text.frees_cons, Text.frees_cons,
        Text.escapesNext_of_ne (ne_backslash_of_isStructural hd hs)]
      exact ⟨fun _ => rfl, fun h => absurd h (by simp [hquote]), hrest⟩
    · rw [writeTerm_of_not_structural hs, Text.frees_cons]
      exact ⟨fun h => hc (by simp [h]), hrest⟩

/-- Reading a term takes the backslashes off that were written. -/
theorem unescape_writeTerm {v : Text} (h : Text.Frees (Text.isStructural d) false v)
    (hend : Text.dangles false v = false) : Text.unescapeStructural d (writeTerm d v) = v := by
  have hkeep {c : Char} (hc : c ≠ '\\') (t : Text) :
      Text.unescapeStructural d (c :: t) = c :: Text.unescapeStructural d t :=
    Text.unescape_cons_of_ne hc t
  have hpair (c : Char) (t : Text) : Text.unescapeStructural d ('\\' :: c :: t) =
      if Text.isStructural d c then c :: Text.unescapeStructural d t
      else '\\' :: c :: Text.unescapeStructural d t := by
    rw [Text.unescapeStructural, Text.unescape]
    rfl
  have hback : ¬Text.isStructural d '\\' = true := fun hs =>
    ne_backslash_of_isStructural hd hs rfl
  -- a value that frees its characters is read in the same pairs as what is written of it
  fun_induction Text.unescape (Text.isStructural d) v with
  | case1 c t hc ih =>
    have hpaired := (Text.frees_cons.mp h).2
    exact absurd ((Text.frees_cons.mp hpaired).1 hc) (by simp [Text.escapesNext])
  | case2 c t hc ih =>
    have hrest : Text.Frees (Text.isStructural d) false t := by
      simpa [Text.escapesNext] using (Text.frees_cons.mp (Text.frees_cons.mp h).2).2
    have htail : Text.dangles false t = false := by simpa [Text.escapesNext] using hend
    rw [writeTerm_of_not_structural hback, writeTerm_of_not_structural hc, hpair, if_neg hc,
      ih hrest htail]
  | case3 c t hnot ih =>
    have hb : c ≠ '\\' := by
      rcases Text.plain_or_last hnot with hb | ⟨rfl, rfl⟩
      · exact hb
      · exact absurd hend (by decide)
    have hrest : Text.Frees (Text.isStructural d) false t := by
      simpa [Text.escapesNext_of_ne hb] using (Text.frees_cons.mp h).2
    have htail : Text.dangles false t = false := by simpa [Text.escapesNext_of_ne hb] using hend
    by_cases hs : Text.isStructural d c = true
    · rw [writeTerm_of_structural hs, hpair, if_pos hs, ih hrest htail]
    · rw [writeTerm_of_not_structural hs, hkeep hb, ih hrest htail]
  | case4 => rfl

/-! ## Bodies -/

variable {values : List Text} (h : ∀ v ∈ values, Writable d v)

include h

/-- The terms are the pieces of the body. -/
theorem stretches_writeBody (hne : values ≠ []) :
    Text.Stretches ',' false (values.map (writeTerm d)) := by
  induction values with
  | nil => exact absurd rfl hne
  | cons v values ih =>
    obtain ⟨hv, hvalues⟩ := List.forall_mem_cons.mp h
    obtain ⟨hfrees, hend⟩ := writable_iff.mp hv
    have hstructural := hfrees.mono (q := Text.isStructural d) fun c hc => by simp [hc]
    have hlacks := lacks_writeTerm hd (x := ',') (by simp [Text.isStructural]) hstructural
    cases values with
    | nil => exact hlacks
    | cons w values =>
      exact ⟨hlacks, by rw [dangles_writeTerm hd hstructural, hend], ih hvalues (by simp)⟩

/-- No delimiter in the body counts, no quote is escaped, and nothing behind the body is. -/
theorem writeBody_spec : Text.Lacks d false (writeBody d values) ∧
    Text.Frees isQuote false (writeBody d values) ∧
      Text.dangles false (writeBody d values) = false := by
  induction values with
  | nil => exact ⟨True.intro, Text.frees_nil, rfl⟩
  | cons v values ih =>
    obtain ⟨hv, hvalues⟩ := List.forall_mem_cons.mp h
    obtain ⟨hfrees, hend⟩ := writable_iff.mp hv
    have hstructural := hfrees.mono (q := Text.isStructural d) fun c hc => by simp [hc]
    have hlacks := lacks_writeTerm hd (x := d) (by simp [Text.isStructural]) hstructural
    have hquotes := frees_writeTerm hd hfrees
    have hdangles : Text.dangles false (writeTerm d v) = false := by
      rw [dangles_writeTerm hd hstructural, hend]
    cases values with
    | nil =>
      rw [writeBody, List.map_singleton, Text.join_singleton]
      exact ⟨hlacks, hquotes, hdangles⟩
    | cons w values =>
      obtain ⟨hlacks', hquotes', hdangles'⟩ := ih hvalues
      have hbody : writeBody d (v :: w :: values) =
          writeTerm d v ++ ',' :: writeBody d (w :: values) := by
        simp only [writeBody, List.map_cons, Text.join_cons_cons, List.singleton_append]
      have hcomma : Text.escapesNext false ',' = false := rfl
      rw [hbody, Text.lacks_append, Text.frees_append, Text.dangles_append, hdangles,
        Text.lacks_cons, Text.frees_cons, Text.dangles_cons, hcomma]
      exact ⟨⟨hlacks, fun hd' => absurd hd'.symm (ne_comma_of_isDelimiter hd), hlacks'⟩,
        ⟨hquotes, fun _ => rfl, hquotes'⟩, hdangles'⟩

end Delimiter

/-- Without the marker behind its quotes a body is not hidden, and is kept as it is. -/
theorem stripMarker_of_not_prefix {marker body : Text} (h : ¬marker <+: body.dropWhile isQuote) :
    stripMarker marker body = (false, body) := by
  unfold stripMarker
  cases hafter : Text.after? marker (body.dropWhile isQuote) with
  | none => rfl
  | some rest => exact absurd ⟨rest, (Text.after?_eq_some_iff.mp hafter).symm⟩ h

/-- A group with the values written in its body is read as one group, which is not hidden, and whose
terms are the values. -/
theorem read_written {style : GroupStyle} (hd : isDelimiter style.delimiter = true)
    {values : List Text} (hne : values ≠ []) (h : ∀ v ∈ values, Writable style.delimiter v)
    (hshown : ¬style.hiddenMarker <+: (writeBody style.delimiter values).dropWhile isQuote) :
    ∃ g, RawTemplate.read style (writeGroup style.delimiter values) =
        .ok ⟨[.literal [], .slot 0, .literal []], [g]⟩ ∧
      g.hidden = false ∧ g.terms.map (Text.unescapeStructural style.delimiter) = values := by
  have hb := ne_backslash_of_isDelimiter hd
  obtain ⟨hlacks, hquotes, hend⟩ := writeBody_spec hd h
  -- the line has the body for its only content
  have hsplit : Text.splitUnescaped style.delimiter (writeGroup style.delimiter values) =
      [[], writeBody style.delimiter values, []] := by
    have hstretches : Text.Stretches style.delimiter false
        [[], writeBody style.delimiter values, []] :=
      ⟨True.intro, rfl, hlacks, hend, True.intro⟩
    have hjoin := Text.splitUnescaped_join hb hstretches
    simpa [writeGroup] using hjoin
  have hodd : (Text.splitUnescaped style.delimiter
      (writeGroup style.delimiter values)).length % 2 = 1 := by
    simp [hsplit]
  obtain ⟨raw, hread, hsegments, hgroups⟩ := read_of_odd hd hodd
  rw [hsplit] at hsegments hgroups
  obtain ⟨g, gs, ⟨lead, hclose⟩, hnil, hraw⟩ := List.forall₂_cons_left_iff.mp hgroups
  obtain rfl : gs = [] := List.forall₂_nil_left_iff.mp hnil
  have hmarker := stripMarker_of_not_prefix hshown
  have hbody : unquoteBody .plain (writeBody style.delimiter values) =
      writeBody style.delimiter values := Text.unescape_of_frees hquotes
  have hterms : Text.splitUnescaped ',' (writeBody style.delimiter values) =
      values.map (writeTerm style.delimiter) :=
    Text.splitUnescaped_join (by decide) (stretches_writeBody hd h hne)
  have hg : g.hidden = false ∧ g.terms = values.map (writeTerm style.delimiter) := by
    rw [hclose]
    simp [OpenGroup.close, hmarker, hbody, hterms]
  refine ⟨g, ?_, hg.1, ?_⟩
  · have hall : raw = ⟨raw.segments, raw.groups⟩ := rfl
    rw [hread, hall, hsegments, hraw]
    rfl
  · rw [hg.2, List.map_map]
    refine (List.map_congr_left fun v hv => ?_).trans (List.map_id _)
    obtain ⟨hfrees, hdangles⟩ := writable_iff.mp (h v hv)
    exact unescape_writeTerm hd (hfrees.mono fun c hc => by simp [hc]) hdangles

/-- Values with a delimiter, a comma and both quotes next to runs of two backslashes, a lone
backslash in front of another character, and an empty one. -/
def awkwardValues : List Text :=
  ["\\\\,@\\\\'".toList, [], "'-:\\n\\\\".toList, "\"@@,,".toList]

theorem read_awkwardValues :
    isDelimiter '@' = true ∧ awkwardValues ≠ [] ∧ (∀ v ∈ awkwardValues, Writable '@' v) ∧
      ¬['-', ':'] <+: (writeBody '@' awkwardValues).dropWhile isQuote ∧
      ∃ g, RawTemplate.read {} (writeGroup '@' awkwardValues) =
          .ok ⟨[.literal [], .slot 0, .literal []], [g]⟩ ∧
        g.hidden = false ∧ g.terms.map (Text.unescapeStructural '@') = awkwardValues := by
  have hd : isDelimiter '@' = true := by decide
  have hne : awkwardValues ≠ [] := by decide
  have h : ∀ v ∈ awkwardValues, Writable '@' v := by decide
  have hshown : ¬['-', ':'] <+: (writeBody '@' awkwardValues).dropWhile isQuote := by decide
  exact ⟨hd, hne, h, hshown, @read_written {} hd _ hne h hshown⟩

end Fanout
