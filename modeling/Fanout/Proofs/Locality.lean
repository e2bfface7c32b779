import Fanout.Fault.Basic
import Fanout.Proofs.Reading

/-!
# What a group holds stays inside it

A reader comes out of a group as it went in: the same scanner, an empty literal, and nothing that
may be a path. So a line whose group gets another content is read as before. The group keeps its
place, its quotes and its path, all other groups keep everything, and what stands behind the group
moves by as many bytes as the content has grown or shrunk.

* `Pairs`: the reader of a line opens a group behind `a` and closes it behind `c`.
* `Follows`: two offsets behind the group, one in each line.
* `Swapped`: the groups of the two lines.
* `Twin`: two readers behind the group, one in each line. `Twin.step` keeps them so.
* `read_swapped`: the two lines are both refused, or both templates that differ in the group alone.
-/

namespace Fanout

namespace Reader

variable {style : GroupStyle} {r : Reader}

/-! ## Where groups begin -/

/-- Only a delimiter opens a group, and only where it stands itself. -/
theorem step_start {c : Char} {g : OpenGroup} (hg : (r.step style c).opened = some g) :
    (g.start = r.offset ∧ c = style.delimiter) ∨ ∃ x, r.opened = some x ∧ g.start = x.start := by
  have hkept (o : Option OpenGroup)
      (ho : o.map (fun x => { x with content := c :: x.content }) = some g) :
      ∃ x, o = some x ∧ g.start = x.start := by
    obtain ⟨x, hx, rfl⟩ := Option.map_eq_some_iff.mp ho
    exact ⟨x, hx, rfl⟩
  unfold step at hg
  simp only at hg
  split_ifs at hg with hescapes hd
  · rw [keep_opened] at hg
    exact .inr (hkept _ hg)
  · unfold delimit at hg
    cases ho : r.opened with
    | none =>
      simp only [ho] at hg
      obtain rfl := Option.some.inj hg
      exact .inl ⟨rfl, hd⟩
    | some x => simp [ho] at hg
  · rw [stop_opened, keep_opened] at hg
    exact .inr (hkept _ hg)

/-- A character closes the open group or leaves the groups as they are. -/
theorem step_groups (style : GroupStyle) (r : Reader) (c : Char) :
    (r.step style c).groups = r.groups ∨
      ∃ x, r.opened = some x ∧ (r.step style c).groups = r.groups ++ [x.close style] := by
  unfold step
  simp only
  split_ifs
  · exact .inl (keep_groups ..)
  · unfold delimit
    cases ho : r.opened with
    | none => exact .inl rfl
    | some x => exact .inr ⟨x, rfl, rfl⟩
  · exact .inl ((stop_groups ..).trans (keep_groups ..))

theorem offset_step (c : Char) : (r.step style c).offset = r.offset + c.utf8Size := rfl

theorem offset_foldl (t : Text) : (t.foldl (step style) r).offset = r.offset + t.byteLength := by
  induction t generalizing r with
  | nil => rfl
  | cons c t ih => rw [List.foldl_cons, ih, offset_step, Text.byteLength_cons, Nat.add_assoc]

/-- What a reader opens from some offset on opens behind it. -/
theorem le_start {n : Nat} (hn : n ≤ r.offset) (ho : ∀ g, r.opened = some g → n ≤ g.start)
    {t : Text} {g : OpenGroup} (hg : (t.foldl (step style) r).opened = some g) : n ≤ g.start := by
  induction t generalizing r with
  | nil => exact ho g hg
  | cons c t ih =>
    refine ih (r := r.step style c) ?_ ?_ hg
    · rw [offset_step]
      omega
    · intro y hy
      obtain ⟨hstart, -⟩ | ⟨x, hx, hstart⟩ := step_start hy
      · omega
      · have := ho x hx
        omega

/-- The groups of a reader begin before the place it has come to. -/
structure Ordered (r : Reader) : Prop where
  opened : ∀ g, r.opened = some g → g.start < r.offset
  groups : ∀ g ∈ r.groups, g.start < r.offset

theorem Ordered.step (h : r.Ordered) (c : Char) : (r.step style c).Ordered := by
  have hpos := c.utf8Size_pos
  refine ⟨fun g hg => ?_, fun g hg => ?_⟩
  · rw [offset_step]
    obtain ⟨hstart, -⟩ | ⟨x, hx, hstart⟩ := step_start hg
    · omega
    · have := h.opened x hx
      omega
  · rw [offset_step]
    obtain hgroups | ⟨x, hx, hgroups⟩ := step_groups style r c
    · have := h.groups g (hgroups ▸ hg)
      omega
    · rw [hgroups, List.mem_append, List.mem_singleton] at hg
      obtain hg | rfl := hg
      · have := h.groups g hg
        omega
      · have hstart : (x.close style).start = x.start := rfl
        have := h.opened x hx
        omega

theorem Ordered.foldl (h : r.Ordered) (t : Text) : (t.foldl (Reader.step style) r).Ordered := by
  induction t generalizing r with
  | nil => exact h
  | cons c t ih => exact ih (h.step c)

/-- What the reader of a line has made of its first part. -/
def after (style : GroupStyle) (t : Text) : Reader := t.foldl (Reader.step style) {}

theorem after_append (style : GroupStyle) (t u : Text) :
    after style (t ++ u) = u.foldl (Reader.step style) (after style t) := by
  unfold after
  rw [List.foldl_append]

theorem offset_after (style : GroupStyle) (t : Text) : (after style t).offset = t.byteLength := by
  unfold after
  rw [offset_foldl]
  exact Nat.zero_add _

theorem ordered_after (t : Text) : (after style t).Ordered := by
  apply Ordered.foldl
  constructor <;> simp

end Reader

/-! ## Pairs of delimiters -/

/-- The reader of a line that begins with `a`, a delimiter, `c` and a delimiter opens a group at the
first of the two and closes it at the second. -/
structure Pairs (style : GroupStyle) (a c : Text) : Prop where
  before : (Reader.after style a).opened = none
  within : ∃ g, (Reader.after style (a ++ style.delimiter :: c)).opened = some g ∧
    g.start = a.byteLength
  behind : (Reader.after style (a ++ style.delimiter :: (c ++ [style.delimiter]))).opened = none

namespace Reader

variable {style : GroupStyle} {r : Reader} (hd : isDelimiter style.delimiter = true)

include hd

/-- A group that is open all along a text has no unescaped delimiter in it. -/
theorem lacks_of_opened {g : OpenGroup} (ho : r.opened = some g) (hlt : g.start < r.offset)
    {t : Text} {x : OpenGroup} (hx : (t.foldl (step style) r).opened = some x)
    (hsame : x.start = g.start) : Text.Lacks style.delimiter r.scanner.escaping t := by
  induction t generalizing r g with
  | nil => trivial
  | cons c t ih =>
    have hc : c = style.delimiter → r.scanner.escaping = true := by
      rintro rfl
      by_contra hescaping
      -- the group would be closed here, and the open one would begin behind this place
      have hclosed := step_close hd ho (Bool.eq_false_iff.mpr hescaping)
      have hstart : r.offset ≤ x.start := by
        refine le_start ?_ ?_ (r := r.step style style.delimiter) hx
        · rw [offset_step]
          omega
        · intro y hy
          rw [hclosed] at hy
          exact absurd hy (by simp)
      omega
    rw [List.foldl_cons, step_content ho hc] at hx
    refine ⟨hc, ?_⟩
    rw [← Scanner.next_escaping r.scanner c false]
    refine ih (g := { g with content := c :: g.content }) rfl ?_ hx hsame
    exact Nat.lt_add_right _ hlt

omit hd in
/-- A group that is closed behind a text is not closed by an escaped delimiter. -/
theorem dangles_of_closed {g : OpenGroup} (ho : r.opened = some g)
    (hs : r.scanner.escaping = false) {t : Text} (ht : Text.Lacks style.delimiter false t)
    (hclosed : ((t ++ [style.delimiter]).foldl (step style) r).opened = none) :
    Text.dangles false t = false := by
  by_contra hdangles
  have hescaping : (r.scanner.run false t).escaping = true := by
    rw [Scanner.run_escaping, hs]
    simpa using hdangles
  rw [List.foldl_append, foldl_content ho (by rwa [hs]), List.foldl_cons, List.foldl_nil,
    step_content rfl fun _ => hescaping] at hclosed
  exact absurd hclosed (by simp)

/-- An escaped delimiter opens no group. -/
theorem escaping_of_start (ho : r.opened = none) {t : Text} {g : OpenGroup}
    (hg : ((style.delimiter :: t).foldl (step style) r).opened = some g)
    (hstart : g.start = r.offset) : r.scanner.escaping = false := by
  by_contra hescaping
  have hpos := style.delimiter.utf8Size_pos
  obtain ⟨quoted, run, hstep⟩ := step_literal hd ho fun _ => by simpa using hescaping
  have hlate : r.offset + style.delimiter.utf8Size ≤ g.start := by
    refine le_start (r := r.step style style.delimiter) (Nat.le_refl _) ?_ hg
    intro y hy
    rw [hstep] at hy
    exact absurd (ho.symm.trans hy) (by simp)
  omega

end Reader

namespace Pairs

variable {style : GroupStyle} {a c : Text} (h : Pairs style a c)
  (hd : isDelimiter style.delimiter = true)

include h hd

theorem escaping : (Reader.after style a).scanner.escaping = false := by
  obtain ⟨g, hopened, hstart⟩ := h.within
  rw [Reader.after_append] at hopened
  refine Reader.escaping_of_start hd h.before hopened ?_
  rw [hstart, Reader.offset_after]

/-- The reader at the start of the content. -/
theorem opening : ∃ g, (Reader.after style (a ++ [style.delimiter])).opened = some g ∧
    g.start = a.byteLength ∧
    (Reader.after style (a ++ [style.delimiter])).scanner.escaping = false ∧
    (Reader.after style (a ++ [style.delimiter])).groups = (Reader.after style a).groups := by
  rw [Reader.after_append, List.foldl_cons, Reader.step_lead hd h.before (h.escaping hd),
    Reader.offset_after]
  exact ⟨_, rfl, rfl, h.escaping hd, rfl⟩

theorem lacks : Text.Lacks style.delimiter false c := by
  obtain ⟨g, hopened, hstart, hescaping, -⟩ := h.opening hd
  obtain ⟨x, hx, hsame⟩ := h.within
  have hpos := style.delimiter.utf8Size_pos
  rw [List.append_cons, Reader.after_append] at hx
  rw [← hescaping]
  refine Reader.lacks_of_opened hd hopened ?_ hx (hsame.trans hstart.symm)
  rw [hstart, Reader.offset_after, Text.byteLength_append, Text.byteLength_cons]
  omega

theorem dangles_content : Text.dangles false c = false := by
  obtain ⟨g, hopened, -, hescaping, -⟩ := h.opening hd
  have hbehind := h.behind
  rw [List.append_cons, Reader.after_append] at hbehind
  exact Reader.dangles_of_closed hopened hescaping (h.lacks hd) hbehind

end Pairs

/-! ## Two lines -/

/-- The offsets lie behind place `n`, in two lines whose texts there are `c` and `c'`: they are as
far apart as the texts are in length. -/
structure Follows (n : Nat) (c c' : Text) (p p' : Nat) : Prop where
  lt : n < p
  lt' : n < p'
  shift : p' + c.byteLength = p + c'.byteLength

/-- The groups have the same place, quotes and path. They may differ in all that their contents
decide. -/
structure RawGroup.SamePlace (n : Nat) (g g' : RawGroup) : Prop where
  start : g.start = n
  start' : g'.start = n
  quote : g'.quote = g.quote
  externalPath : g'.externalPath = g.externalPath

/-- The groups are the same but for the bytes that have come or gone in front of them. -/
structure RawGroup.Moved (n : Nat) (c c' : Text) (g g' : RawGroup) : Prop where
  hidden : g'.hidden = g.hidden
  terms : g'.terms = g.terms
  externalPath : g'.externalPath = g.externalPath
  quote : g'.quote = g.quote
  start : Follows n c c' g.start g'.start

/-- The group at `n` has got another content, `c'` for `c`. The groups before it are as they were,
the groups behind it have moved. -/
inductive Swapped (n : Nat) (c c' : Text) : List RawGroup → List RawGroup → Prop
  | here {g g' gs gs'} (group : RawGroup.SamePlace n g g')
      (later : List.Forall₂ (RawGroup.Moved n c c') gs gs') : Swapped n c c' (g :: gs) (g' :: gs')
  | there {g gs gs'} (earlier : g.start < n) (rest : Swapped n c c' gs gs') :
      Swapped n c c' (g :: gs) (g :: gs')

section Swapped

variable {n : Nat} {c c' : Text} {gs gs' : List RawGroup} {g g' : RawGroup}

theorem Swapped.length_eq (h : Swapped n c c' gs gs') : gs'.length = gs.length := by
  induction h with
  | here _ later => rw [List.length_cons, List.length_cons, later.length_eq]
  | there _ _ ih => rw [List.length_cons, List.length_cons, ih]

theorem Swapped.of_last (hbefore : ∀ x ∈ gs, x.start < n) (h : RawGroup.SamePlace n g g') :
    Swapped n c c' (gs ++ [g]) (gs ++ [g']) := by
  induction gs with
  | nil => exact .here h .nil
  | cons x gs ih =>
    apply Swapped.there
    · exact hbefore x (by simp)
    · exact ih fun y hy => hbefore y (List.mem_cons_of_mem x hy)

theorem Swapped.concat (h : Swapped n c c' gs gs') (hg : RawGroup.Moved n c c' g g') :
    Swapped n c c' (gs ++ [g]) (gs' ++ [g']) := by
  induction h with
  | here group later => exact .here group (List.rel_append later (.cons hg .nil))
  | there earlier _ ih => exact .there earlier ih

theorem Follows.add {p p' : Nat} (h : Follows n c c' p p') (k : Nat) :
    Follows n c c' (p + k) (p' + k) := by
  obtain ⟨hlt, hlt', hshift⟩ := h
  constructor <;> omega

end Swapped

namespace Reader

/-! ## Two readers behind the group -/

/-- The open groups are the same but for their place. -/
inductive SameOpened (n : Nat) (c c' : Text) : Option OpenGroup → Option OpenGroup → Prop
  | closed : SameOpened n c c' none none
  | opened {g g'} (quote : g'.quote = g.quote) (lead : g'.lead = g.lead)
      (content : g'.content = g.content) (start : Follows n c c' g.start g'.start) :
      SameOpened n c c' (some g) (some g')

/-- Two readers behind the group, in lines that are the same from there on. -/
structure Twin (n : Nat) (c c' : Text) (r r' : Reader) : Prop where
  scanner : r'.scanner = r.scanner
  literal : r'.literal = r.literal
  quoted : r'.quoted = r.quoted
  run : r'.run = r.run
  segments : r'.segments = r.segments
  offset : Follows n c c' r.offset r'.offset
  opened : SameOpened n c c' r.opened r'.opened
  groups : Swapped n c c' r.groups r'.groups

section Twin

variable {style : GroupStyle} {n : Nat} {c c' : Text} {r r' : Reader}

theorem SameOpened.isNone_eq {o o' : Option OpenGroup} (h : SameOpened n c c' o o') :
    o'.isNone = o.isNone := by
  cases h <;> rfl

theorem moved_close {g g' : OpenGroup} (hquote : g'.quote = g.quote) (hlead : g'.lead = g.lead)
    (hcontent : g'.content = g.content) (hstart : Follows n c c' g.start g'.start) :
    RawGroup.Moved n c c' (g.close style) (g'.close style) := by
  unfold OpenGroup.close
  rw [hquote, hlead, hcontent]
  exact ⟨rfl, rfl, rfl, rfl, hstart⟩

theorem Twin.scan (h : Twin n c c' r r') (s : Scanner) :
    Twin n c c' { r with scanner := s } { r' with scanner := s } :=
  ⟨rfl, h.literal, h.quoted, h.run, h.segments, h.offset, h.opened, h.groups⟩

theorem Twin.keep (h : Twin n c c' r r') (x : Char) : Twin n c c' (r.keep x) (r'.keep x) := by
  obtain ⟨scanner, literal, quoted, run, segments, offset, hopened, groups⟩ := h
  unfold Reader.keep
  generalize r.opened = o, r'.opened = o' at hopened
  cases hopened with
  | closed =>
    refine ⟨scanner, ?_, ?_, ?_, segments, offset, .closed, groups⟩
    · exact congrArg (x :: ·) literal
    · exact congrArg (x :: ·) quoted
    · exact congrArg (x :: ·) run
  | opened quote lead content start =>
    refine ⟨scanner, literal, quoted, run, segments, offset, ?_, groups⟩
    exact .opened quote lead (congrArg (x :: ·) content) start

theorem Twin.stop (h : Twin n c c' r r') (x : Char) : Twin n c c' (r.stop x) (r'.stop x) := by
  have hsome : r'.opened.isSome = r.opened.isSome := by
    rw [← Option.not_isNone, ← Option.not_isNone, h.opened.isNone_eq]
  unfold Reader.stop
  rw [hsome]
  split_ifs
  · exact h
  · exact ⟨h.scanner, h.literal, rfl, rfl, h.segments, h.offset, h.opened, h.groups⟩
  · exact ⟨h.scanner, h.literal, h.quoted, rfl, h.segments, h.offset, h.opened, h.groups⟩
  · exact h

theorem Twin.delimit (h : Twin n c c' r r') :
    Twin n c c' (r.delimit style) (r'.delimit style) := by
  obtain ⟨scanner, literal, quoted, run, segments, offset, hopened, groups⟩ := h
  unfold Reader.delimit
  generalize r.opened = o, r'.opened = o' at hopened
  cases hopened with
  | closed =>
    refine ⟨scanner, literal, quoted, run, segments, offset, ?_, groups⟩
    refine .opened ?_ ?_ rfl offset
    · rw [scanner]
    · rw [scanner, quoted, run]
  | opened quote lead content start =>
    refine ⟨scanner, rfl, rfl, rfl, ?_, offset, .closed, ?_⟩
    · rw [segments, literal, groups.length_eq]
    · exact groups.concat (moved_close quote lead content start)

theorem Twin.step (h : Twin n c c' r r') (x : Char) :
    Twin n c c' (r.step style x) (r'.step style x) := by
  have hadvance {s s' : Reader} (hs : Twin n c c' s s') :
      Twin n c c' { s with offset := r.offset + x.utf8Size }
        { s' with offset := r'.offset + x.utf8Size } :=
    ⟨hs.scanner, hs.literal, hs.quoted, hs.run, hs.segments, h.offset.add _, hs.opened, hs.groups⟩
  have hscan := h.scan (r.scanner.next x r.opened.isNone)
  unfold Reader.step
  simp only [h.scanner, h.opened.isNone_eq]
  split_ifs
  · exact hadvance (hscan.keep x)
  · exact hadvance hscan.delimit
  · exact hadvance ((hscan.keep x).stop x)

theorem Twin.foldl (h : Twin n c c' r r') (t : Text) :
    Twin n c c' (t.foldl (Reader.step style) r) (t.foldl (Reader.step style) r') := by
  induction t generalizing r r' with
  | nil => exact h
  | cons x t ih => exact ih (h.step x)

/-- What the readers make of their lines at the end. -/
theorem Twin.finish (h : Twin n c c' r r') :
    ((∃ raw, r.finish style = .ok raw) ↔ ∃ raw', r'.finish style = .ok raw') ∧
    (∀ raw raw', r.finish style = .ok raw → r'.finish style = .ok raw' →
      raw'.segments = raw.segments ∧ raw'.groups.length = raw.groups.length ∧
        Swapped n c c' raw.groups raw'.groups) ∧
    (∀ f f', r.finish style = .error f → r'.finish style = .error f' →
      ∃ p p', f.position = some p ∧ f'.position = some p' ∧ Follows n c c' p p') := by
  unfold Reader.finish
  have hopened := h.opened
  generalize r.opened = o, r'.opened = o' at hopened
  cases hopened with
  | closed =>
    refine ⟨⟨fun _ => ⟨_, rfl⟩, fun _ => ⟨_, rfl⟩⟩, ?_, ?_⟩
    · intro raw raw' hraw hraw'
      obtain rfl := Except.ok.inj hraw
      obtain rfl := Except.ok.inj hraw'
      refine ⟨?_, h.groups.length_eq, h.groups⟩
      rw [h.segments, h.literal]
    · intro f f' hf
      exact absurd hf (by simp)
  | @opened g g' quote lead content start =>
    refine ⟨?_, ?_, ?_⟩
    · simp
    · intro raw raw' hraw
      exact absurd hraw (by simp)
    · intro f f' hf hf'
      obtain rfl := Except.error.inj hf
      obtain rfl := Except.error.inj hf'
      exact ⟨g.start, g'.start, rfl, rfl, start⟩

/-- The readers behind the old content and the new one. -/
theorem twin_of_pairs (hd : isDelimiter style.delimiter = true) {a : Text} (h : Pairs style a c)
    (hlacks : Text.Lacks style.delimiter false c') (hdangles : Text.dangles false c' = false) :
    Twin a.byteLength c c' (after style (a ++ style.delimiter :: (c ++ [style.delimiter])))
      (after style (a ++ style.delimiter :: (c' ++ [style.delimiter]))) := by
  obtain ⟨g, hopened, hstart, hescaping, hgroups⟩ := h.opening hd
  have hpos := style.delimiter.utf8Size_pos
  have hbefore : ∀ x ∈ (after style a).groups, x.start < a.byteLength := by
    rw [← offset_after style a]
    exact (ordered_after a).groups
  have hcontent (t : Text) : after style (a ++ style.delimiter :: (t ++ [style.delimiter])) =
      (t ++ [style.delimiter]).foldl (step style) (after style (a ++ [style.delimiter])) := by
    rw [List.append_cons, after_append]
  rw [hcontent, hcontent, foldl_close hd hopened hescaping (h.lacks hd) (h.dangles_content hd),
    foldl_close hd hopened hescaping hlacks hdangles]
  refine ⟨rfl, rfl, rfl, rfl, rfl, ?_, .closed, ?_⟩
  · simp only [offset_after, Text.byteLength_append, Text.byteLength_cons]
    constructor <;> omega
  · rw [hgroups]
    exact .of_last hbefore ⟨hstart, hstart, rfl, rfl⟩

end Twin

end Reader

/-! ## Reading the two lines -/

/-- A line with a group is accepted or refused whatever the group holds, as long as the content
keeps to itself: no unescaped delimiter in it, and no backslash that escapes the one behind it. The
literals and slots are the same, and so are all groups but this one, which has the same place,
quotes and path. What stands behind it moves with the length of the content, and so does the place
of a fault. -/
theorem read_swapped {style : GroupStyle} (hd : isDelimiter style.delimiter = true) {a c c' : Text}
    (h : Pairs style a c) (hlacks : Text.unescapedOffsets style.delimiter c' = [])
    (heven : Text.trailingBackslashes c' % 2 = 0) (b : Text) :
    let line (content : Text) : Text :=
      a ++ style.delimiter :: (content ++ style.delimiter :: b)
    ((∃ raw, RawTemplate.read style (line c) = .ok raw) ↔
      ∃ raw', RawTemplate.read style (line c') = .ok raw') ∧
    (∀ raw raw', RawTemplate.read style (line c) = .ok raw →
      RawTemplate.read style (line c') = .ok raw' →
        raw'.segments = raw.segments ∧ raw'.groups.length = raw.groups.length ∧
          Swapped a.byteLength c c' raw.groups raw'.groups) ∧
    (∀ f f', RawTemplate.read style (line c) = .error f →
      RawTemplate.read style (line c') = .error f' →
        ∃ p p', f.position = some p ∧ f'.position = some p' ∧ Follows a.byteLength c c' p p') := by
  intro line
  have hdangles : Text.dangles false c' = false := by
    rw [Text.dangles_eq_odd, heven]
    decide
  have hread (content : Text) : RawTemplate.read style (line content) =
      (b.foldl (Reader.step style) (Reader.after style
        (a ++ style.delimiter :: (content ++ [style.delimiter])))).finish style := by
    rw [← Reader.after_append]
    simp [RawTemplate.read, Reader.after, line]
  have htwin := Reader.twin_of_pairs hd h
    (Text.lacks_of_unescapedOffsets (ne_backslash_of_isDelimiter hd) hlacks) hdangles
  rw [hread, hread]
  exact (htwin.foldl b).finish

/-- An apostrophe, a quote, a slash and an escaped delimiter in a group make no difference to the
group behind it. -/
theorem read_swapped_quotes :
    Pairs {} "echo '/a/".toList "1,2".toList ∧
      ∃ raw raw', RawTemplate.read {} "echo '/a/@1,2@' b/@c@".toList = .ok raw ∧
        RawTemplate.read {} "echo '/a/@it's \"/\\@@' b/@c@".toList = .ok raw' ∧
        raw'.segments = raw.segments ∧
        Swapped 9 "1,2".toList "it's \"/\\@".toList raw.groups raw'.groups := by
  have hpairs : Pairs {} "echo '/a/".toList "1,2".toList :=
    ⟨by decide, ⟨_, rfl, by decide⟩, by decide⟩
  have hlacks : Text.unescapedOffsets '@' "it's \"/\\@".toList = [] := by decide
  obtain ⟨haccepted, hsame, -⟩ :=
    read_swapped (by decide) hpairs hlacks (by decide) "' b/@c@".toList
  obtain ⟨raw, hraw⟩ : ∃ raw, RawTemplate.read {} "echo '/a/@1,2@' b/@c@".toList = .ok raw :=
    ⟨_, rfl⟩
  obtain ⟨raw', hraw'⟩ := haccepted.mp ⟨raw, hraw⟩
  obtain ⟨hsegments, -, hgroups⟩ := hsame raw raw' hraw hraw'
  exact ⟨hpairs, raw, raw', hraw, hraw', hsegments, hgroups⟩

end Fanout
