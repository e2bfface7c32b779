import Fanout.Proofs.Offsets
import Fanout.Settings
import Mathlib.Data.List.Forall2

/-!
# Reading a line stretch by stretch

A reader takes a line apart at its unescaped delimiters: every other stretch becomes a literal, the
ones in between become groups. Quotes decide which context a group stands in, and where a path in
front of it begins, but not where a group begins or ends.

* `foldl_literal`, `foldl_content`: a stretch outside a group, and inside one.
* `foldl_group`: a literal with the group behind it.
* `Reads`: what a reader has made of an odd number of stretches; `reads_join` says that it does.
* `opened_join`: an even number of stretches leaves a group open.
-/

namespace Fanout

/-! ## Delimiters -/

section Delimiter

variable {d : Char} (hd : isDelimiter d = true)

include hd

theorem ne_backslash_of_isDelimiter : d ≠ '\\' := by
  rintro rfl
  exact absurd hd (by decide)

theorem ne_apostrophe_of_isDelimiter : d ≠ '\'' := by
  rintro rfl
  exact absurd hd (by decide)

theorem ne_quote_of_isDelimiter : d ≠ '"' := by
  rintro rfl
  exact absurd hd (by decide)

theorem ne_space_of_isDelimiter : d ≠ ' ' := by
  rintro rfl
  exact absurd hd (by decide)

theorem ne_comma_of_isDelimiter : d ≠ ',' := by
  rintro rfl
  exact absurd hd (by decide)

/-- An unescaped delimiter leaves a scanner as it is. -/
theorem next_delimiter {s : Scanner} (hs : s.escaping = false) (tracked : Bool) :
    s.next d tracked = s := by
  have hb := ne_backslash_of_isDelimiter hd
  have ha := ne_apostrophe_of_isDelimiter hd
  have hq := ne_quote_of_isDelimiter hd
  have hcontext : s.context.after d = s.context := by
    cases hc : s.context <;> simp [QuoteContext.after, ha, hq]
  have hself : ({ context := s.context, escaping := false } : Scanner) = s := by rw [← hs]
  unfold Scanner.next
  rw [Scanner.escapes_of_ne ha, hs, hcontext]
  cases tracked <;> simp [hb, hself]

end Delimiter

namespace Reader

variable {style : GroupStyle} {r : Reader}

/-! ## Characters that part nothing -/

theorem keep_opened (r : Reader) (c : Char) :
    (r.keep c).opened = r.opened.map fun g => { g with content := c :: g.content } := by
  unfold keep
  cases ho : r.opened with
  | none => simp
  | some g => rfl

theorem keep_groups (r : Reader) (c : Char) : (r.keep c).groups = r.groups := by
  unfold keep
  split <;> rfl

theorem keep_segments (r : Reader) (c : Char) : (r.keep c).segments = r.segments := by
  unfold keep
  split <;> rfl

theorem stop_opened (r : Reader) (c : Char) : (r.stop c).opened = r.opened := by
  unfold stop
  split_ifs <;> rfl

theorem stop_groups (r : Reader) (c : Char) : (r.stop c).groups = r.groups := by
  unfold stop
  split_ifs <;> rfl

theorem stop_segments (r : Reader) (c : Char) : (r.stop c).segments = r.segments := by
  unfold stop
  split_ifs <;> rfl

/-- Outside a group, a character that is no unescaped delimiter joins the literal. An unescaped
quote, or else a blank, ends what may become the lead of a group. -/
theorem step_kept (hd : isDelimiter style.delimiter = true) (ho : r.opened = none) {c : Char}
    (hc : c = style.delimiter → r.scanner.escaping = true) :
    r.step style c =
      { r with
        scanner := r.scanner.next c true, offset := r.offset + c.utf8Size
        literal := c :: r.literal
        quoted := if isQuote c && !r.scanner.escapes c true then [] else c :: r.quoted
        run := if (isQuote c || Text.isBlank c) && !r.scanner.escapes c true then []
          else c :: r.run } := by
  unfold step
  simp only [ho, Option.isNone_none]
  by_cases he : r.scanner.escapes c true = true
  · rw [if_pos he]
    simp [keep, he]
  · have hne : c ≠ style.delimiter := by
      intro h
      have ha : c ≠ '\'' := h ▸ ne_apostrophe_of_isDelimiter hd
      rw [Scanner.escapes_of_ne ha] at he
      exact he (hc h)
    rw [if_neg he, if_neg hne]
    cases hq : isQuote c <;> cases hb : Text.isBlank c <;> simp [keep, stop, he, hq, hb]

/-- The same, whatever may become the lead of a group. -/
theorem step_literal (hd : isDelimiter style.delimiter = true) (ho : r.opened = none) {c : Char}
    (hc : c = style.delimiter → r.scanner.escaping = true) :
    ∃ quoted run, r.step style c =
      { r with
        scanner := r.scanner.next c true, offset := r.offset + c.utf8Size
        literal := c :: r.literal, quoted, run } := ⟨_, _, step_kept hd ho hc⟩

/-- A stretch outside a group joins the literal. -/
theorem foldl_literal (hd : isDelimiter style.delimiter = true) (ho : r.opened = none) {t : Text}
    (h : Text.Lacks style.delimiter r.scanner.escaping t) :
    ∃ quoted run, t.foldl (step style) r =
      { r with
        scanner := r.scanner.run true t, offset := r.offset + t.byteLength
        literal := t.reverse ++ r.literal, quoted, run } := by
  induction t generalizing r with
  | nil => exact ⟨r.quoted, r.run, rfl⟩
  | cons c t ih =>
    obtain ⟨hc, ht⟩ := h
    obtain ⟨quoted, run, hstep⟩ := step_literal hd ho hc
    rw [List.foldl_cons, hstep]
    obtain ⟨quoted', run', hrest⟩ := ih (r := { r with
      scanner := r.scanner.next c true, offset := r.offset + c.utf8Size
      literal := c :: r.literal, quoted, run }) ho (by rwa [Scanner.next_escaping])
    refine ⟨quoted', run', ?_⟩
    rw [hrest]
    simp [Nat.add_assoc]

/-- Inside a group, a character that is no unescaped delimiter joins its content. -/
theorem step_content {g : OpenGroup} (ho : r.opened = some g) {c : Char}
    (hc : c = style.delimiter → r.scanner.escaping = true) :
    r.step style c =
      { r with
        scanner := r.scanner.next c false, offset := r.offset + c.utf8Size
        opened := some { g with content := c :: g.content } } := by
  unfold step
  simp only [ho, Option.isNone_some, Scanner.escapes_untracked]
  by_cases he : r.scanner.escaping = true
  · rw [if_pos he]
    simp [keep]
  · rw [if_neg he, if_neg fun h => he (hc h)]
    simp [keep, stop]

/-- A stretch inside a group joins its content. -/
theorem foldl_content {g : OpenGroup} (ho : r.opened = some g) {t : Text}
    (h : Text.Lacks style.delimiter r.scanner.escaping t) :
    t.foldl (step style) r =
      { r with
        scanner := r.scanner.run false t, offset := r.offset + t.byteLength
        opened := some { g with content := t.reverse ++ g.content } } := by
  induction t generalizing r g with
  | nil => simp [← ho]
  | cons c t ih =>
    obtain ⟨hc, ht⟩ := h
    rw [List.foldl_cons, step_content ho hc, ih rfl (by rwa [Scanner.next_escaping])]
    simp [Nat.add_assoc]

/-! ## Groups -/

/-- An unescaped delimiter opens a group behind its lead. -/
theorem step_lead (hd : isDelimiter style.delimiter = true) (ho : r.opened = none)
    (hs : r.scanner.escaping = false) :
    r.step style style.delimiter =
      { r with
        offset := r.offset + style.delimiter.utf8Size
        opened := some ⟨r.offset, r.scanner.context,
          leadOf r.scanner.context r.quoted.reverse r.run.reverse, []⟩ } := by
  have hescapes : r.scanner.escapes style.delimiter true = false := by
    rw [Scanner.escapes_of_ne (ne_apostrophe_of_isDelimiter hd), hs]
  unfold step
  simp [ho, hescapes, delimit, next_delimiter hd hs]

/-- An unescaped delimiter opens a group. -/
theorem step_open (hd : isDelimiter style.delimiter = true) (ho : r.opened = none)
    (hs : r.scanner.escaping = false) :
    ∃ lead, r.step style style.delimiter =
      { r with
        offset := r.offset + style.delimiter.utf8Size
        opened := some ⟨r.offset, r.scanner.context, lead, []⟩ } := ⟨_, step_lead hd ho hs⟩

/-- The next one closes it. -/
theorem step_close (hd : isDelimiter style.delimiter = true) {g : OpenGroup}
    (ho : r.opened = some g) (hs : r.scanner.escaping = false) :
    r.step style style.delimiter =
      { r with
        offset := r.offset + style.delimiter.utf8Size
        literal := [], quoted := [], run := [], opened := none
        segments := r.segments ++ [.literal r.literal.reverse, .slot r.groups.length]
        groups := r.groups ++ [g.close style] } := by
  unfold step
  simp [ho, Scanner.escapes_untracked, hs, delimit, next_delimiter hd hs]

/-- The content of an open group, and the delimiter that closes it. -/
theorem foldl_close (hd : isDelimiter style.delimiter = true) {g : OpenGroup}
    (ho : r.opened = some g) (hs : r.scanner.escaping = false) {c : Text}
    (hc : Text.Lacks style.delimiter false c) (hcs : Text.dangles false c = false) :
    (c ++ [style.delimiter]).foldl (step style) r =
      { r with
        offset := r.offset + c.byteLength + style.delimiter.utf8Size
        literal := [], quoted := [], run := [], opened := none
        segments := r.segments ++ [.literal r.literal.reverse, .slot r.groups.length]
        groups := r.groups ++ [{ g with content := c.reverse ++ g.content }.close style] } := by
  have hscanner : r.scanner.run false c = r.scanner := Scanner.run_untracked hs hcs
  rw [List.foldl_append, foldl_content ho (by rwa [hs]), List.foldl_cons, List.foldl_nil,
    step_close hd rfl (by rwa [hscanner]), hscanner]

/-- A literal and the opening of the group behind it. -/
theorem foldl_open (hd : isDelimiter style.delimiter = true) (ho : r.opened = none) {l c : Text}
    (hl : Text.Lacks style.delimiter r.scanner.escaping l)
    (hls : Text.dangles r.scanner.escaping l = false) (hc : Text.Lacks style.delimiter false c) :
    ∃ quoted run lead, (l ++ style.delimiter :: c).foldl (step style) r =
      { r with
        scanner := (r.scanner.run true l).run false c
        offset := r.offset + l.byteLength + style.delimiter.utf8Size + c.byteLength
        literal := l.reverse ++ r.literal, quoted, run
        opened := some ⟨r.offset + l.byteLength, (r.scanner.run true l).context, lead,
          c.reverse⟩ } := by
  have hescaping : (r.scanner.run true l).escaping = false := by rw [Scanner.run_escaping, hls]
  obtain ⟨quoted, run, hliteral⟩ := foldl_literal hd ho hl
  rw [List.foldl_append, hliteral, List.foldl_cons]
  obtain ⟨lead, hopen⟩ := @step_open style { r with
    scanner := r.scanner.run true l, offset := r.offset + l.byteLength
    literal := l.reverse ++ r.literal, quoted, run } hd ho hescaping
  rw [hopen]
  rw [foldl_content rfl (by rwa [hescaping])]
  exact ⟨quoted, run, lead, by simp⟩

/-- The reader behind a literal and a group whose lead is known. -/
def behindGroup (style : GroupStyle) (r : Reader) (l c lead : Text) : Reader where
  scanner := r.scanner.run true l
  offset := r.offset + l.byteLength + style.delimiter.utf8Size + c.byteLength
    + style.delimiter.utf8Size
  segments := r.segments ++ [.literal (r.literal.reverse ++ l), .slot r.groups.length]
  groups := r.groups ++ [OpenGroup.close style
    ⟨r.offset + l.byteLength, (r.scanner.run true l).context, lead, c.reverse⟩]

/-- A literal and the whole group behind it. -/
theorem foldl_group (hd : isDelimiter style.delimiter = true) (ho : r.opened = none) {l c : Text}
    (hl : Text.Lacks style.delimiter r.scanner.escaping l)
    (hls : Text.dangles r.scanner.escaping l = false) (hc : Text.Lacks style.delimiter false c)
    (hcs : Text.dangles false c = false) :
    ∃ lead, (l ++ style.delimiter :: (c ++ [style.delimiter])).foldl (step style) r =
      behindGroup style r l c lead := by
  have hescaping : (r.scanner.run true l).escaping = false := by rw [Scanner.run_escaping, hls]
  have hrun : (r.scanner.run true l).run false c = r.scanner.run true l :=
    Scanner.run_untracked hescaping hcs
  obtain ⟨quoted, run, lead, hopen⟩ := foldl_open hd ho hl hls hc
  refine ⟨lead, ?_⟩
  rw [← List.cons_append, ← List.append_assoc, List.foldl_append, hopen, List.foldl_cons,
    List.foldl_nil, step_close hd rfl (by rw [hrun, hescaping]), hrun]
  simp [behindGroup]

end Reader

/-! ## Stretches -/

/-- The pieces that stretches read in turn as literals and groups make, slots numbered from `k`. -/
def segmentsFrom (k : Nat) : List Text → List Segment
  | l :: _ :: ts => .literal l :: .slot k :: segmentsFrom (k + 1) ts
  | [l] => [.literal l]
  | [] => []

/-- A group in a line: where it opens, which quotes it stands in, and what it holds. -/
structure Spot where
  start : Nat
  quote : QuoteContext
  content : Text

/-- The groups among stretches that begin at offset `n`, behind what the scanner has seen. The
content of a group leaves the scanner as it is. -/
def spotsFrom (d : Char) (s : Scanner) (n : Nat) : List Text → List Spot
  | l :: c :: ts =>
    ⟨n + l.byteLength, (s.run true l).context, c⟩ ::
      spotsFrom d (s.run true l)
        (n + l.byteLength + d.utf8Size + c.byteLength + d.utf8Size) ts
  | _ => []

theorem length_spotsFrom (d : Char) : ∀ (s : Scanner) (n : Nat) (ts : List Text),
    (spotsFrom d s n ts).length = ts.length / 2
  | _, _, [] => rfl
  | _, _, [_] => by simp [spotsFrom]
  | s, n, l :: c :: ts => by
    rw [spotsFrom, List.length_cons, length_spotsFrom d _ _ ts, List.length_cons, List.length_cons]
    omega

/-- The stretches that are read as literals, as one text. -/
def literalsAmong : List Text → Text
  | l :: _ :: ts => l ++ literalsAmong ts
  | [l] => l
  | [] => []

/-- The group is what reading makes of the one in the line, whatever stands in front of it. -/
def Spot.Becomes (style : GroupStyle) (x : Spot) (g : RawGroup) : Prop :=
  ∃ lead, g = OpenGroup.close style ⟨x.start, x.quote, lead, x.content.reverse⟩

namespace Reader

/-- The literal that is being read dangles when the scanner says so. -/
def Tidy (r : Reader) : Prop := Text.dangles false r.literal.reverse = r.scanner.escaping

/-- What becomes of a reader over an odd number of stretches: each second one is a group. -/
structure Reads (style : GroupStyle) (r : Reader) (ts : List Text) (r' : Reader) : Prop where
  opened : r'.opened = none
  tidy : r'.Tidy
  scanner : r'.scanner = r.scanner.run true (literalsAmong ts)
  segments : r'.segments ++ [.literal r'.literal.reverse] =
    r.segments ++ segmentsFrom r.groups.length (ts.modifyHead (r.literal.reverse ++ ·))
  groups : ∃ gs, r'.groups = r.groups ++ gs ∧
    List.Forall₂ (Spot.Becomes style) (spotsFrom style.delimiter r.scanner r.offset ts) gs

theorem join_group (d : Char) (l c l' : Text) (ts : List Text) :
    Text.join [d] (l :: c :: l' :: ts) = l ++ d :: (c ++ [d]) ++ Text.join [d] (l' :: ts) := by
  simp

/-- Stretches are read in turn as literals and groups. -/
theorem reads_join {style : GroupStyle} (hd : isDelimiter style.delimiter = true) :
    ∀ (ts : List Text) (r : Reader), r.opened = none → r.Tidy →
      Text.Stretches style.delimiter r.scanner.escaping ts → ts.length % 2 = 1 →
        Reads style r ts ((Text.join [style.delimiter] ts).foldl (step style) r)
  | [], _, _, _, h, _ => absurd h id
  | [_, _], _, _, _, _, hodd => absurd hodd (by simp)
  | [l], r, ho, ht, h, _ => by
    obtain ⟨quoted, run, hliteral⟩ := foldl_literal hd ho h
    rw [Text.join_singleton, hliteral]
    refine ⟨ho, ?_, rfl, ?_, [], (List.append_nil _).symm, List.Forall₂.nil⟩
    · unfold Tidy at ht ⊢
      rw [Scanner.run_escaping, List.reverse_append, List.reverse_reverse, Text.dangles_append, ht]
    · simp [segmentsFrom]
  | l :: c :: l' :: ts, r, ho, ht, h, hodd => by
    obtain ⟨hl, hls, hc, hcs, hrest⟩ := h
    obtain ⟨lead, hgroup⟩ := foldl_group hd ho hl hls hc hcs
    have hescaping : (r.scanner.run true l).escaping = false := by rw [Scanner.run_escaping, hls]
    rw [join_group, List.foldl_append, hgroup]
    have hodd' : (l' :: ts).length % 2 = 1 := by
      simp only [List.length_cons] at hodd ⊢
      omega
    obtain ⟨hopened, htidy, hscanner, hsegments, gs, hgs, hspots⟩ :=
      reads_join hd (l' :: ts) (behindGroup style r l c lead) rfl hescaping.symm
        (by rwa [behindGroup, hescaping]) hodd'
    let g := OpenGroup.close style
      ⟨r.offset + l.byteLength, (r.scanner.run true l).context, lead, c.reverse⟩
    refine ⟨hopened, htidy, ?_, ?_, g :: gs, ?_, ?_⟩
    · rw [hscanner, literalsAmong, Scanner.run_append, behindGroup]
    · rw [hsegments]
      simp [segmentsFrom, behindGroup]
    · rw [hgs]
      simp [behindGroup, g]
    · exact List.Forall₂.cons ⟨lead, rfl⟩ hspots

/-- An even number of stretches leaves a group open, at the last delimiter. -/
theorem opened_join {style : GroupStyle} (hd : isDelimiter style.delimiter = true) :
    ∀ (ts : List Text) (r : Reader), r.opened = none →
      Text.Stretches style.delimiter r.scanner.escaping ts → ts.length % 2 = 0 →
        ∃ g, ((Text.join [style.delimiter] ts).foldl (step style) r).opened = some g ∧
          (Text.edges style.delimiter r.offset ts).getLast? = some g.start
  | [], _, _, h, _ => absurd h id
  | [_], _, _, _, heven => absurd heven (by simp)
  | [l, c], r, ho, h, _ => by
    obtain ⟨hl, hls, hc⟩ := h
    obtain ⟨quoted, run, lead, hopen⟩ := foldl_open hd ho hl hls hc
    rw [Text.join_cons_cons, Text.join_singleton, List.singleton_append, hopen]
    exact ⟨_, rfl, rfl⟩
  | l :: c :: l' :: ts, r, ho, h, heven => by
    obtain ⟨hl, hls, hc, hcs, hrest⟩ := h
    obtain ⟨lead, hgroup⟩ := foldl_group hd ho hl hls hc hcs
    have hescaping : (r.scanner.run true l).escaping = false := by rw [Scanner.run_escaping, hls]
    have heven' : (l' :: ts).length % 2 = 0 := by
      simp only [List.length_cons] at heven ⊢
      omega
    obtain ⟨g, hopened, hlast⟩ := opened_join hd (l' :: ts) (behindGroup style r l c lead) rfl
      (by rwa [behindGroup, hescaping]) heven'
    rw [join_group, List.foldl_append, hgroup]
    refine ⟨g, hopened, ?_⟩
    rw [behindGroup] at hlast
    rw [Text.edges_cons_cons, Text.edges_cons_cons, List.getLast?_cons, List.getLast?_cons, hlast]
    rfl

end Reader

/-! ## Whole lines -/

section Line

variable {style : GroupStyle} (hd : isDelimiter style.delimiter = true)

include hd

/-- A line with an odd number of stretches is a template. -/
theorem read_of_odd {line : Text}
    (h : (Text.splitUnescaped style.delimiter line).length % 2 = 1) :
    ∃ raw, RawTemplate.read style line = .ok raw ∧
      raw.segments = segmentsFrom 0 (Text.splitUnescaped style.delimiter line) ∧
      List.Forall₂ (Spot.Becomes style)
        (spotsFrom style.delimiter {} 0 (Text.splitUnescaped style.delimiter line)) raw.groups := by
  have hb := ne_backslash_of_isDelimiter hd
  obtain ⟨hopened, -, -, hsegments, gs, hgs, hspots⟩ :=
    Reader.reads_join hd _ {} rfl rfl (Text.stretches_splitUnescaped hb line) h
  rw [Text.join_splitUnescaped hb] at hopened hsegments hgs
  have hread : RawTemplate.read style line =
      let r := line.foldl (Reader.step style) {}
      .ok ⟨r.segments ++ [.literal r.literal.reverse], r.groups⟩ := by
    rw [RawTemplate.read, Reader.finish, hopened]
  refine ⟨_, hread, ?_, ?_⟩
  · rw [hsegments]
    cases Text.splitUnescaped style.delimiter line <;> rfl
  · rw [hgs]
    exact hspots

/-- A line with an even number of stretches leaves a group open. -/
theorem read_of_even {line : Text}
    (h : (Text.splitUnescaped style.delimiter line).length % 2 = 0) :
    ∃ n, RawTemplate.read style line = .error (.unterminatedGroup style.delimiter n) ∧
      (Text.edges style.delimiter 0 (Text.splitUnescaped style.delimiter line)).getLast?
        = some n := by
  have hb := ne_backslash_of_isDelimiter hd
  obtain ⟨g, hopened, hlast⟩ :=
    Reader.opened_join hd _ {} rfl (Text.stretches_splitUnescaped hb line) h
  rw [Text.join_splitUnescaped hb] at hopened
  refine ⟨g.start, ?_, hlast⟩
  rw [RawTemplate.read, Reader.finish, hopened]

end Line

end Fanout
