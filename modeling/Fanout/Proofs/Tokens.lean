import Fanout.Proofs.Reading
import Fanout.Proofs.Words

/-!
# Reading a row of words

Words are quoted and joined before they are read as a template. The quoting moves no delimiter, so
the template is that of the words one by one: each word holds its own groups, in its own quotes, and
shows its own literals between them.

* `filled`: what pieces show when texts are put into their slots.
* `spelled`: what a word becomes on the line, given the texts of its slots.
* `held`: the groups that a word holds, in its quotes.
* `Reader.Grows`: what reading on adds. It composes (`Grows.trans`), so a row of words is read word
  by word.
* `read_join`: the template of a row of words.
-/

namespace Fanout

/-- What pieces show, the texts of `slot` in their slots. -/
def filled (d : Char) (slot : Nat → Text) (segments : List Segment) : Text :=
  segments.flatMap fun
    | .literal t => Text.unescapeStructural d t
    | .slot k => slot k

/-- The stretches that are read as the contents of groups. -/
def contentsAmong : List Text → List Text
  | _ :: c :: ts => c :: contentsAmong ts
  | _ => []

/-- How many groups a word holds. -/
def groupCount (d : Char) (token : Text) : Nat := (Text.unescapedOffsets d token).length / 2

/-- The quotes that a word is written in. -/
def contextOf (token : Text) : QuoteContext := if ShellWord.isBare token then .plain else .single

/-- A word on the line, with the texts of its slots, which are numbered from `k`. -/
def spelled (d : Char) (slot : Nat → Text) (k : Nat) (token : Text) : Text :=
  if ShellWord.isBare token then filled d slot (segmentsFrom k (Text.splitUnescaped d token))
  else
    '\'' :: filled d slot
      (segmentsFrom k ((Text.splitUnescaped d token).map ShellWord.quotedBody)) ++ ['\'']

/-- The words of a row on the line, the slots numbered through from `k`. -/
def spelledFrom (d : Char) (slot : Nat → Text) (k : Nat) : List Text → List Text
  | [] => []
  | token :: tokens =>
    spelled d slot k token :: spelledFrom d slot (k + groupCount d token) tokens

/-- The groups that a word holds: the quotes around each, and its content as the word has it. -/
def held (d : Char) (token : Text) : List (QuoteContext × Text) :=
  (contentsAmong (Text.splitUnescaped d token)).map (contextOf token, ·)

/-- The group stands in the quotes, and has the terms of the content unless it is hidden. -/
def Holds (p : QuoteContext × Text) (g : RawGroup) : Prop :=
  g.quote = p.1 ∧ (g.hidden = false → g.terms = Text.splitUnescaped ',' p.2)

theorem filled_append (d : Char) (slot : Nat → Text) (xs ys : List Segment) :
    filled d slot (xs ++ ys) = filled d slot xs ++ filled d slot ys := List.flatMap_append

theorem filled_literal (d : Char) (slot : Nat → Text) (t : Text) :
    filled d slot [.literal t] = Text.unescapeStructural d t := by
  simp [filled]

/-- A text in front of the first stretch shows in front of all. -/
theorem filled_modifyHead (d : Char) (slot : Nat → Text) (k : Nat) {u : Text} {ts : List Text}
    (hu : Text.dangles false u = false) (hts : ts ≠ []) :
    filled d slot (segmentsFrom k (ts.modifyHead (u ++ ·))) =
      Text.unescapeStructural d u ++ filled d slot (segmentsFrom k ts) := by
  have hunescape (t : Text) : Text.unescapeStructural d (u ++ t) =
      Text.unescapeStructural d u ++ Text.unescapeStructural d t := Text.unescape_append hu t
  match ts, hts with
  | [t], _ => simp [filled, segmentsFrom, hunescape]
  | t :: c :: ts, _ => simp [filled, segmentsFrom, hunescape]

theorem length_contentsAmong : ∀ ts : List Text, (contentsAmong ts).length = ts.length / 2
  | [] => rfl
  | [_] => by simp [contentsAmong]
  | l :: c :: ts => by
    rw [contentsAmong, List.length_cons, length_contentsAmong ts, List.length_cons,
      List.length_cons]
    omega

/-- Delimiters that come in pairs leave a literal at the end. -/
theorem odd_of_even {d : Char} (hd : d ≠ '\\') {token : Text}
    (h : (Text.unescapedOffsets d token).length % 2 = 0) :
    (Text.splitUnescaped d token).length % 2 = 1 := by
  have hlength := Text.length_unescapedOffsets hd token
  omega

theorem length_splitUnescaped_half {d : Char} (hd : d ≠ '\\') {token : Text}
    (h : (Text.unescapedOffsets d token).length % 2 = 0) :
    (Text.splitUnescaped d token).length / 2 = groupCount d token := by
  have hlength := Text.length_unescapedOffsets hd token
  rw [groupCount]
  omega

theorem length_held {d : Char} (hd : d ≠ '\\') {token : Text}
    (h : (Text.unescapedOffsets d token).length % 2 = 0) :
    (held d token).length = groupCount d token := by
  rw [held, List.length_map, length_contentsAmong, length_splitUnescaped_half hd h]

theorem contentsAmong_map (f : Text → Text) : ∀ ts : List Text,
    contentsAmong (ts.map f) = (contentsAmong ts).map f
  | [] => rfl
  | [_] => by simp [contentsAmong]
  | l :: c :: ts => by simp [contentsAmong, contentsAmong_map f ts]

theorem literalsAmong_map {f : Text → Text} (h : ∀ t u, f (t ++ u) = f t ++ f u)
    (hnil : f [] = []) : ∀ ts : List Text, literalsAmong (ts.map f) = f (literalsAmong ts)
  | [] => hnil.symm
  | [_] => rfl
  | l :: c :: ts => by simp [literalsAmong, literalsAmong_map h hnil ts, h]

theorem mem_of_mem_literalsAmong {c : Char} : ∀ {ts : List Text}, c ∈ literalsAmong ts →
    ∃ t ∈ ts, c ∈ t
  | [], h => absurd h List.not_mem_nil
  | [t], h => ⟨t, List.mem_singleton_self t, h⟩
  | l :: x :: ts, h => by
    obtain hl | hts := List.mem_append.mp h
    · exact ⟨l, List.mem_cons_self, hl⟩
    · obtain ⟨t, ht, hc⟩ := mem_of_mem_literalsAmong hts
      exact ⟨t, List.mem_cons_of_mem _ (List.mem_cons_of_mem _ ht), hc⟩

theorem mem_of_mem_contentsAmong {c : Text} : ∀ {ts : List Text}, c ∈ contentsAmong ts → c ∈ ts
  | [], h => absurd h List.not_mem_nil
  | [_], h => absurd h (by simp [contentsAmong])
  | l :: x :: ts, h => by
    obtain rfl | hts := List.mem_cons.mp h
    · simp
    · exact List.mem_cons_of_mem _ (List.mem_cons_of_mem _ (mem_of_mem_contentsAmong hts))

/-- The stretches of a text have no other characters than the text. -/
theorem mem_of_mem_splitUnescaped {d : Char} (hd : d ≠ '\\') {token t : Text} {c : Char}
    (ht : t ∈ Text.splitUnescaped d token) (hc : c ∈ t) : c ∈ token := by
  have hmem : ∀ {ts : List Text}, t ∈ ts → c ∈ Text.join [d] ts := by
    intro ts hts
    induction ts with
    | nil => exact absurd hts List.not_mem_nil
    | cons u us ih =>
      cases us with
      | nil =>
        obtain rfl := List.mem_singleton.mp hts
        rwa [Text.join_singleton]
      | cons v vs =>
        rw [Text.join_cons_cons]
        obtain rfl | hrest := List.mem_cons.mp hts
        · exact List.mem_append_left _ hc
        · exact List.mem_append_right _ (List.mem_append_right _ (ih hrest))
  rw [← Text.join_splitUnescaped hd token]
  exact hmem ht

/-! ## Groups in constant quotes -/

theorem map_content_spotsFrom (d : Char) : ∀ (s : Scanner) (n : Nat) (ts : List Text),
    (spotsFrom d s n ts).map Spot.content = contentsAmong ts
  | _, _, [] => rfl
  | _, _, [_] => by simp [spotsFrom, contentsAmong]
  | s, n, l :: c :: ts => by
    rw [spotsFrom, List.map_cons, map_content_spotsFrom d _ _ ts, contentsAmong]

/-- Among stretches that stay in the quotes they begin in, every group stands in those quotes. -/
theorem quote_spotsFrom {d : Char} {q : QuoteContext} : ∀ {s : Scanner} {n : Nat} {ts : List Text},
    s.context = q → (∀ t ∈ ts, ∀ s : Scanner, s.context = q → (s.run true t).context = q) →
      ∀ x ∈ spotsFrom d s n ts, x.quote = q
  | _, _, [], _, _, _, hx => absurd hx (by simp [spotsFrom])
  | _, _, [_], _, _, _, hx => absurd hx (by simp [spotsFrom])
  | s, n, l :: c :: ts, hs, h, x, hx => by
    have hl := h l List.mem_cons_self s hs
    rw [spotsFrom, List.mem_cons] at hx
    obtain rfl | hx := hx
    · exact hl
    · exact quote_spotsFrom hl
        (fun t ht => h t (List.mem_cons_of_mem _ (List.mem_cons_of_mem _ ht))) x hx

/-- Only a hidden group loses characters to the marker. -/
theorem stripMarker_of_not_hidden {marker content : Text}
    (h : (stripMarker marker content).1 = false) :
    stripMarker marker content = (false, content) := by
  unfold stripMarker at h ⊢
  split at h
  · exact absurd h (by simp)
  · rfl

/-- What groups hold once the quoting of their word is undone. -/
theorem holds_of_becomes {style : GroupStyle} {q : QuoteContext} {w : Text → Text}
    {xs : List Spot} {gs : List RawGroup} (h : List.Forall₂ (Spot.Becomes style) xs gs)
    (hquote : ∀ x ∈ xs, x.quote = q) {cs : List Text} (hcontent : xs.map Spot.content = cs.map w)
    (hw : ∀ c ∈ cs, unquoteBody q (w c) = c) : List.Forall₂ Holds (cs.map (q, ·)) gs := by
  induction h generalizing cs with
  | nil =>
    obtain rfl : cs = [] := by simpa using hcontent.symm
    exact List.Forall₂.nil
  | @cons x g xs gs hg hgs ih =>
    cases cs with
    | nil => exact absurd hcontent (by simp)
    | cons c cs =>
      obtain ⟨hc, hcs⟩ := List.cons.inj hcontent
      have hqx := hquote x List.mem_cons_self
      refine List.Forall₂.cons ?_ (ih (fun y hy => hquote y (List.mem_cons_of_mem _ hy)) hcs
        fun y hy => hw y (List.mem_cons_of_mem _ hy))
      obtain ⟨lead, rfl⟩ := hg
      refine ⟨hqx, fun hhidden => ?_⟩
      have hshown : (stripMarker style.hiddenMarker (w c)).1 = false := by
        simpa [OpenGroup.close, hc] using hhidden
      have hterms : (OpenGroup.close style ⟨x.start, x.quote, lead, x.content.reverse⟩).terms =
          Text.splitUnescaped ',' (unquoteBody q (w c)) := by
        simp [OpenGroup.close, hqx, hc, stripMarker_of_not_hidden hshown]
      rw [hterms, hw c List.mem_cons_self]

/-! ## What reading on adds -/

namespace Reader

variable {style : GroupStyle} {r r' r'' : Reader}

/-- A reader between words: no group is open, no quote, and nothing is escaped. -/
structure Between (r : Reader) : Prop where
  opened : r.opened = none
  scanner : r.scanner = {}
  tidy : r.Tidy

/-- What a reader has read so far, the texts of `slot` in its slots. -/
def shown (d : Char) (slot : Nat → Text) (r : Reader) : Text :=
  filled d slot r.segments ++ Text.unescapeStructural d r.literal.reverse

/-- Reading on from between words to between words has added a text, and groups. -/
structure Grows (style : GroupStyle) (r r' : Reader) (text : (Nat → Text) → Text)
    (holds : List (QuoteContext × Text)) : Prop where
  between : r'.Between
  shown : ∀ slot, r'.shown style.delimiter slot = r.shown style.delimiter slot ++ text slot
  groups : ∃ gs, r'.groups = r.groups ++ gs ∧ List.Forall₂ Holds holds gs

theorem Grows.trans {f f' : (Nat → Text) → Text} {hs hs' : List (QuoteContext × Text)}
    (h : Grows style r r' f hs) (h' : Grows style r' r'' f' hs') :
    Grows style r r'' (fun slot => f slot ++ f' slot) (hs ++ hs') := by
  obtain ⟨gs, hgs, hholds⟩ := h.groups
  obtain ⟨gs', hgs', hholds'⟩ := h'.groups
  refine ⟨h'.between, fun slot => ?_, gs ++ gs', ?_, List.rel_append hholds hholds'⟩
  · rw [h'.shown, h.shown, List.append_assoc]
  · rw [hgs', hgs, List.append_assoc]

theorem Grows.length_groups {f : (Nat → Text) → Text} {hs : List (QuoteContext × Text)}
    (h : Grows style r r' f hs) : r'.groups.length = r.groups.length + hs.length := by
  obtain ⟨gs, hgs, hholds⟩ := h.groups
  rw [hgs, List.length_append, hholds.length_eq]

/-- A quote or a blank between words, or a quote at the end of one, shows as it is. -/
theorem step_mark (hd : isDelimiter style.delimiter = true) (ho : r.opened = none) {c : Char}
    (hc : c = '\'' ∨ c = ' ') :
    (r.step style c).opened = none ∧ (r.step style c).scanner = r.scanner.next c true ∧
      Text.dangles false (r.step style c).literal.reverse = false ∧
      (r.step style c).groups = r.groups ∧ ∀ slot,
        (r.step style c).shown style.delimiter slot = r.shown style.delimiter slot ++ [c] := by
  have hcd : c ≠ style.delimiter := by
    rintro rfl
    obtain h | h := hc
    · exact ne_apostrophe_of_isDelimiter hd h
    · exact ne_space_of_isDelimiter hd h
  have hcomma : c ≠ ',' := by obtain rfl | rfl := hc <;> decide
  have hback : c ≠ '\\' := by obtain rfl | rfl := hc <;> decide
  have hstructural : Text.isStructural style.delimiter c = false := by
    simp [Text.isStructural, hcd, hcomma]
  obtain ⟨quoted, run, hstep⟩ := step_literal hd ho (fun h => absurd h hcd)
  rw [hstep]
  refine ⟨ho, rfl, ?_, rfl, fun slot => ?_⟩
  · rw [List.reverse_cons, Text.dangles_append, Text.dangles_cons, Text.escapesNext_of_ne hback,
      Text.dangles_nil]
  · have hunescape := Text.unescape_append_cons hstructural hback r.literal.reverse []
    simp only [shown, Text.unescapeStructural, List.reverse_cons, hunescape, List.append_assoc]
    rfl

/-- What stretches show, behind a literal that does not reach over to them. -/
theorem Reads.shown_eq {ts : List Text} (h : Reads style r ts r') (ht : r.Tidy)
    (hs : r.scanner.escaping = false) (hts : ts ≠ []) (slot : Nat → Text) :
    r'.shown style.delimiter slot =
      r.shown style.delimiter slot ++
        filled style.delimiter slot (segmentsFrom r.groups.length ts) := by
  have hdangles : Text.dangles false r.literal.reverse = false := by rw [ht, hs]
  rw [shown, ← filled_literal _ slot, ← filled_append, h.segments, filled_append,
    filled_modifyHead _ _ _ hdangles hts, shown, List.append_assoc]

/-! ## Words -/

/-- A word between apostrophes. -/
theorem grows_quoted (hd : isDelimiter style.delimiter = true) (hr : r.Between) {token : Text}
    (hbare : ShellWord.isBare token = false)
    (hodd : (Text.splitUnescaped style.delimiter token).length % 2 = 1) :
    Grows style r ((ShellWord.quote token).foldl (step style) r)
      (fun slot => spelled style.delimiter slot r.groups.length token)
      (held style.delimiter token) := by
  have ha := ne_apostrophe_of_isDelimiter hd
  have hb := ne_backslash_of_isDelimiter hd
  let ts := Text.splitUnescaped style.delimiter token
  have hts : ts ≠ [] := Text.splitFrom_ne_nil _ _ _
  -- the opening apostrophe
  obtain ⟨hopened, hscanner, htidy, hgroups, hshown⟩ := step_mark hd hr.opened (.inl rfl)
  let r₁ := r.step style '\''
  have hr₁ : r₁.scanner = ⟨.single, false⟩ := by
    rw [hscanner, hr.scanner]
    rfl
  have htidy₁ : r₁.Tidy := by rw [Tidy, hr₁, htidy]
  -- the word
  have hstretches : Text.Stretches style.delimiter r₁.scanner.escaping
      (ts.map ShellWord.quotedBody) := by
    rw [hr₁]
    exact ShellWord.stretches_map_quotedBody ha hb (Text.stretches_splitUnescaped hb token)
  have hreads := reads_join hd (ts.map ShellWord.quotedBody) r₁ hopened htidy₁ hstretches
    (by rwa [List.length_map])
  rw [ShellWord.join_map_quotedBody ha, Text.join_splitUnescaped hb] at hreads
  let r₂ := (ShellWord.quotedBody token).foldl (step style) r₁
  have hr₂ : r₂.scanner = ⟨.single, Text.dangles false (literalsAmong ts)⟩ := by
    rw [hreads.scanner, hr₁, literalsAmong_map ShellWord.quotedBody_append rfl,
      ShellWord.scanner_run_quotedBody]
  -- the closing apostrophe
  obtain ⟨hopened₃, hscanner₃, htidy₃, hgroups₃, hshown₃⟩ := step_mark hd hreads.opened (.inl rfl)
  let r₃ := r₂.step style '\''
  have hr₃ : r₃.scanner = {} := by
    rw [hscanner₃, hr₂]
    cases Text.dangles false (literalsAmong ts) <;> rfl
  have hfold : (ShellWord.quote token).foldl (step style) r = r₃ := by
    rw [ShellWord.quote, hbare, if_neg (by decide), List.cons_append, List.foldl_cons,
      List.foldl_append, List.foldl_cons, List.foldl_nil]
  rw [hfold]
  refine ⟨⟨hopened₃, hr₃, ?_⟩, fun slot => ?_, ?_⟩
  · rw [Tidy, hr₃, htidy₃]
  · rw [hshown₃, hreads.shown_eq htidy₁ (by rw [hr₁]) (by simpa using hts), hshown, hgroups,
      spelled, hbare, if_neg (by decide)]
    simp only [List.append_assoc, List.cons_append, List.nil_append]
    rfl
  · obtain ⟨gs, hgs, hbecomes⟩ := hreads.groups
    refine ⟨gs, by rw [hgroups₃, hgs, hgroups], ?_⟩
    have hcontext : contextOf token = .single := by rw [contextOf, hbare, if_neg (by decide)]
    rw [held, hcontext]
    refine holds_of_becomes hbecomes (quote_spotsFrom (by rw [hr₁]) ?_) ?_
      fun c _ => ShellWord.readApostrophes_quotedBody c
    · intro t ht s hs
      obtain ⟨u, -, rfl⟩ := List.mem_map.mp ht
      obtain ⟨context, escaping⟩ := s
      obtain rfl : context = .single := hs
      rw [ShellWord.scanner_run_quotedBody]
    · rw [map_content_spotsFrom, contentsAmong_map]

theorem context_next_plain {c : Char} (h : isQuote c = false) {s : Scanner}
    (hs : s.context = .plain) : (s.next c true).context = .plain := by
  simp only [isQuote, Bool.or_eq_false_iff, decide_eq_false_iff_not] at h
  unfold Scanner.next
  by_cases he : s.escapes c true = true
  · rw [if_pos he]
    exact hs
  rw [if_neg he]
  by_cases hescaping : s.escaping = true
  · rw [if_pos hescaping]
  rw [if_neg hescaping]
  by_cases hb : c = '\\'
  · rw [if_pos hb]
    exact hs
  · rw [if_neg hb, if_pos rfl, hs]
    simp [QuoteContext.after, h]

/-- A scanner outside quotes stays there over a text without quotes. -/
theorem context_run_plain {t : Text} (h : ∀ c ∈ t, isQuote c = false) {s : Scanner}
    (hs : s.context = .plain) : (s.run true t).context = .plain := by
  induction t generalizing s with
  | nil => exact hs
  | cons c t ih =>
    exact ih (fun x hx => h x (List.mem_cons_of_mem _ hx))
      (context_next_plain (h c List.mem_cons_self) hs)

/-- A word without quotes. -/
theorem grows_bare (hd : isDelimiter style.delimiter = true) (hr : r.Between) {token : Text}
    (hbare : ShellWord.isBare token = true)
    (hodd : (Text.splitUnescaped style.delimiter token).length % 2 = 1) :
    Grows style r ((ShellWord.quote token).foldl (step style) r)
      (fun slot => spelled style.delimiter slot r.groups.length token)
      (held style.delimiter token) := by
  have hb := ne_backslash_of_isDelimiter hd
  let ts := Text.splitUnescaped style.delimiter token
  have hts : ts ≠ [] := Text.splitFrom_ne_nil _ _ _
  have hmem {t : Text} (ht : t ∈ ts) {c : Char} (hc : c ∈ t) : c ∉ ShellWord.specials :=
    ShellWord.not_special_of_isBare hbare (mem_of_mem_splitUnescaped hb ht hc)
  have hquote {t : Text} (ht : ∀ c ∈ t, c ∉ ShellWord.specials) : ∀ c ∈ t, isQuote c = false :=
    fun c hc => ShellWord.isQuote_of_not_special (ht c hc)
  have hliterals : ∀ c ∈ literalsAmong ts, c ∉ ShellWord.specials := by
    intro c hc
    obtain ⟨t, ht, hct⟩ := mem_of_mem_literalsAmong hc
    exact hmem ht hct
  have hstretches : Text.Stretches style.delimiter r.scanner.escaping ts := by
    rw [hr.scanner]
    exact Text.stretches_splitUnescaped hb token
  have hreads := reads_join hd ts r hr.opened hr.tidy hstretches hodd
  rw [Text.join_splitUnescaped hb] at hreads
  have hscanner : (token.foldl (step style) r).scanner = {} := by
    have hback : '\\' ∉ literalsAmong ts := fun h => hliterals _ h (by decide)
    have hcontext := context_run_plain (s := {}) (hquote hliterals) rfl
    have hescaping := Scanner.run_escaping {} true (literalsAmong ts)
    rw [Text.dangles_of_not_mem hback] at hescaping
    rw [hreads.scanner, hr.scanner]
    exact Scanner.mk.injEq .. ▸ ⟨hcontext, hescaping⟩
  rw [ShellWord.quote, if_pos hbare]
  refine ⟨⟨hreads.opened, hscanner, hreads.tidy⟩, fun slot => ?_, ?_⟩
  · rw [hreads.shown_eq hr.tidy (by rw [hr.scanner]) hts, spelled, if_pos hbare]
  · obtain ⟨gs, hgs, hbecomes⟩ := hreads.groups
    refine ⟨gs, hgs, ?_⟩
    have hcontext : contextOf token = .plain := if_pos hbare
    rw [held, hcontext]
    refine holds_of_becomes (w := id) hbecomes (quote_spotsFrom (by rw [hr.scanner]) ?_) ?_ ?_
    · intro t ht s hs
      exact context_run_plain (hquote fun c hc => hmem ht hc) hs
    · rw [map_content_spotsFrom, List.map_id]
    · intro c hc
      refine Text.unescape_of_not_mem fun h => ?_
      exact hmem (mem_of_mem_contentsAmong hc) h (by decide)

theorem grows_word (hd : isDelimiter style.delimiter = true) (hr : r.Between) {token : Text}
    (hodd : (Text.splitUnescaped style.delimiter token).length % 2 = 1) :
    Grows style r ((ShellWord.quote token).foldl (step style) r)
      (fun slot => spelled style.delimiter slot r.groups.length token)
      (held style.delimiter token) := by
  cases hbare : ShellWord.isBare token with
  | true => exact grows_bare hd hr hbare hodd
  | false => exact grows_quoted hd hr hbare hodd

/-- The space between two words. -/
theorem grows_space (hd : isDelimiter style.delimiter = true) (hr : r.Between) :
    Grows style r (r.step style ' ') (fun _ => [' ']) [] := by
  obtain ⟨hopened, hscanner, htidy, hgroups, hshown⟩ := step_mark hd hr.opened (.inr rfl)
  have hs : (r.step style ' ').scanner = {} := by
    rw [hscanner, hr.scanner]
    rfl
  refine ⟨⟨hopened, hs, ?_⟩, hshown, [], ?_, List.Forall₂.nil⟩
  · rw [Tidy, hs, htidy]
  · rw [hgroups, List.append_nil]

/-- A row of words. -/
theorem grows_join (hd : isDelimiter style.delimiter = true) {tokens : List Text} (hr : r.Between)
    (heven : ∀ token ∈ tokens, (Text.unescapedOffsets style.delimiter token).length % 2 = 0) :
    Grows style r ((ShellWord.join tokens).foldl (step style) r)
      (fun slot => Text.join [' '] (spelledFrom style.delimiter slot r.groups.length tokens))
      (tokens.flatMap (held style.delimiter)) := by
  induction tokens generalizing r with
  | nil =>
    refine ⟨hr, fun slot => ?_, [], (List.append_nil _).symm, List.Forall₂.nil⟩
    exact (List.append_nil _).symm
  | cons token tokens ih =>
    have hb := ne_backslash_of_isDelimiter hd
    have htoken := heven token List.mem_cons_self
    have hword := grows_word hd hr (odd_of_even hb htoken)
    cases tokens with
    | nil => simpa [ShellWord.join, spelledFrom] using hword
    | cons next rest =>
      have hspace := grows_space hd hword.between
      have hrest := ih hspace.between fun t ht => heven t (List.mem_cons_of_mem _ ht)
      have hlength :
          ((ShellWord.quote token).foldl (step style) r |>.step style ' ').groups.length =
            r.groups.length + groupCount style.delimiter token := by
        rw [hspace.length_groups, hword.length_groups, length_held hb htoken]
        rfl
      have hline : (ShellWord.join (token :: next :: rest)).foldl (step style) r =
          (ShellWord.join (next :: rest)).foldl (step style)
            (((ShellWord.quote token).foldl (step style) r).step style ' ') := by
        simp only [ShellWord.join, List.map_cons, Text.join_cons_cons, List.foldl_append,
          List.foldl_cons, List.foldl_nil]
      rw [hline]
      have hall := (hword.trans hspace).trans hrest
      rw [hlength] at hall
      simpa [spelledFrom] using hall

end Reader

/-- The template of a row of words: the words one by one, each with the groups it holds. -/
theorem read_join {style : GroupStyle} (hd : isDelimiter style.delimiter = true)
    {tokens : List Text}
    (heven : ∀ token ∈ tokens, (Text.unescapedOffsets style.delimiter token).length % 2 = 0) :
    ∃ raw, RawTemplate.read style (ShellWord.join tokens) = .ok raw ∧
      (∀ slot, filled style.delimiter slot raw.segments =
        Text.join [' '] (spelledFrom style.delimiter slot 0 tokens)) ∧
      List.Forall₂ Holds (tokens.flatMap (held style.delimiter)) raw.groups := by
  have hstart : Reader.Between {} := ⟨rfl, rfl, rfl⟩
  obtain ⟨hbetween, hshown, gs, hgs, hholds⟩ := Reader.grows_join hd hstart heven
  let r := (ShellWord.join tokens).foldl (Reader.step style) {}
  refine ⟨⟨r.segments ++ [.literal r.literal.reverse], r.groups⟩, ?_, fun slot => ?_, ?_⟩
  · rw [RawTemplate.read, Reader.finish, hbetween.opened]
  · have hempty : Reader.shown style.delimiter slot {} = [] := rfl
    have hall := hshown slot
    rw [hempty, List.nil_append] at hall
    rw [filled_append, filled_literal]
    exact hall
  · rwa [hgs]

end Fanout
