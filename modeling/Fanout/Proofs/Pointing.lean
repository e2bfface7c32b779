import Fanout.Proofs.Locality
import Fanout.Proofs.Offsets

/-!
# The place that a report points at

A report of a fault shows a window of the command line, and in the line below it a caret. The window
is cut between characters, however many bytes these take, so it is a part of the command line; and
since the caret stands as many characters in as the window shows in front of the place, it stands
under the character there.

* `Text.floorBoundary`, `Text.slice?`: offsets rounded down to a boundary, and a part of a text by
  its offsets, refused unless both are boundaries. `floorBoundary_eq`: rounding is what `upTo` does.
* `Window`: a command line around one of its characters; `Window.around` is the one that is shown.
* `PointsAt`: what a report shows of a window; `pointsAt_around`.
* `Reader.opens_after`: a group that is open was opened by a delimiter that was read.
* `render_pointsAt`: all reports with a place in the line, and those of lines that are refused.
-/

namespace Fanout

namespace Text

/-! ## Offsets rounded down -/

/-- The last boundary that is not behind the offset. -/
def floorBoundary (t : Text) : Nat → Nat
  | 0 => 0
  | n + 1 => if isBoundary (n + 1) t then n + 1 else floorBoundary t n

/-- The text from one byte offset to another, if it is a part of the text and cuts no character. -/
def slice? (a b : Nat) (t : Text) : Option Text :=
  if a ≤ b ∧ isBoundary a t = true ∧ isBoundary b t = true then some (slice a b t) else none

/-- An opening does not grow towards an offset inside a character. -/
theorem upTo_succ_of_not_isBoundary {n : Nat} {t : Text} (h : isBoundary (n + 1) t = false) :
    upTo (n + 1) t = upTo n t := by
  have hne : byteLength (upTo (n + 1) t) ≠ n + 1 := fun heq => by
    rw [isBoundary_iff.mpr heq] at h
    exact Bool.noConfusion h
  induction t generalizing n with
  | nil => rfl
  | cons c t ih =>
    have hpos := c.utf8Size_pos
    rcases Nat.lt_or_ge n c.utf8Size with hlt | hle
    · by_cases hfits : c.utf8Size ≤ n + 1
      · have hsize : n + 1 - c.utf8Size = 0 := by omega
        rw [upTo, if_pos hfits, hsize, upTo_zero, byteLength_cons, byteLength_nil] at hne
        omega
      · rw [upTo, upTo, if_neg hfits, if_neg (by omega)]
    · have hrest : n + 1 - c.utf8Size = n - c.utf8Size + 1 := by omega
      have hcons : upTo (n + 1) (c :: t) = c :: upTo (n - c.utf8Size + 1) t := by
        rw [upTo, if_pos (by omega), hrest]
      have hne' : byteLength (upTo (n - c.utf8Size + 1) t) ≠ n - c.utf8Size + 1 := by
        rw [hcons, byteLength_cons] at hne
        omega
      have hnot : isBoundary (n - c.utf8Size + 1) t = false :=
        Bool.eq_false_iff.mpr (mt isBoundary_iff.mp hne')
      rw [hcons, ih hnot hne', upTo, if_pos hle]

/-- Rounding down ends where the longest opening does. -/
theorem floorBoundary_eq (t : Text) (n : Nat) : floorBoundary t n = byteLength (upTo n t) := by
  induction n with
  | zero => rw [floorBoundary, upTo_zero, byteLength_nil]
  | succ n ih =>
    rw [floorBoundary]
    split_ifs with h
    · exact (isBoundary_iff.mp h).symm
    · rw [ih, upTo_succ_of_not_isBoundary (Bool.eq_false_iff.mpr h)]

theorem upTo_append_of_le {n : Nat} {u : Text} (h : n ≤ byteLength u) (t : Text) :
    upTo n (u ++ t) = upTo n u := by
  induction u generalizing n with
  | nil =>
    obtain rfl : n = 0 := Nat.le_zero.mp h
    rw [upTo_zero, upTo_zero]
  | cons c u ih =>
    rw [byteLength_cons] at h
    rw [List.cons_append, upTo, upTo]
    split_ifs with hc
    · rw [ih (by omega)]
    · rfl

theorem upTo_of_le {n : Nat} {t : Text} (h : byteLength t ≤ n) : upTo n t = t := by
  obtain ⟨m, rfl⟩ := Nat.exists_eq_add_of_le h
  have hwhole := upTo_append t [] m
  rwa [List.append_nil, upTo, List.append_nil] at hwhole

theorem slice?_append (u t v : Text) :
    slice? (byteLength u) (byteLength u + byteLength t) (u ++ (t ++ v)) = some t := by
  have hleft : isBoundary (byteLength u) (u ++ (t ++ v)) = true := isBoundary_byteLength u (t ++ v)
  have hright : isBoundary (byteLength u + byteLength t) (u ++ (t ++ v)) = true := by
    have hboundary := isBoundary_byteLength (u ++ t) v
    rwa [byteLength_append, List.append_assoc] at hboundary
  rw [slice?, if_pos ⟨Nat.le_add_right _ _, hleft, hright⟩, slice_append]

/-- The offset in front of a character lies before the end. -/
theorem byteLength_lt_append_cons (u : Text) (c : Char) (v : Text) :
    byteLength u < byteLength (u ++ c :: v) := by
  have hpos := c.utf8Size_pos
  rw [byteLength_append, byteLength_cons]
  omega

/-- A boundary in front of the end has a character behind it. -/
theorem exists_of_lt {n : Nat} {t : Text} (hn : n < byteLength t) (h : isBoundary n t = true) :
    ∃ u c v, t = u ++ c :: v ∧ byteLength u = n := by
  cases hrest : (beyond n t).head? with
  | some c =>
    obtain ⟨u, v, ht, hu⟩ := exists_of_isBoundary h hrest
    exact ⟨u, c, v, ht, hu⟩
  | none =>
    have hsplit := upTo_append_beyond n t
    have hlength := isBoundary_iff.mp h
    rw [List.head?_eq_none_iff.mp hrest, List.append_nil] at hsplit
    rw [hsplit] at hlength
    omega

end Text

/-! ## Windows -/

/-- A command line around one of its characters: what is shown of it in front of the character and
behind it, and what is left out at either end. -/
structure Window where
  front : Text
  before : Text
  char : Char
  behind : Text
  rest : Text
  deriving DecidableEq, Repr

namespace Window

/-- What is shown. -/
def snippet (w : Window) : Text := w.before ++ w.char :: w.behind

/-- The whole command line. -/
def line (w : Window) : Text := w.front ++ (w.snippet ++ w.rest)

/-- The byte offset of the character. -/
def offset (w : Window) : Nat := Text.byteLength (w.front ++ w.before)

/-- A newline is shown as an arrow, and every other character as it is. -/
def shown (c : Char) : Char := if c = '\n' then '↵' else c

/-- What the line of a report that shows the window begins with. -/
def heading : Text := "  near: '".toList

/-- The line of a report that shows the window. -/
def near (w : Window) : Text := heading ++ (w.snippet.map shown ++ ['\''])

/-- The window around the character behind `u`. -/
def around (u : Text) (c : Char) (v : Text) : Window where
  front := Text.upTo (Text.byteLength u - Report.reach) u
  before := Text.beyond (Text.byteLength u - Report.reach) u
  char := c
  behind := Text.upTo (Report.reach - c.utf8Size) v
  rest := Text.beyond (Report.reach - c.utf8Size) v

section Around

variable (u : Text) (c : Char) (v : Text)

theorem opening_around : (around u c v).front ++ (around u c v).before = u :=
  Text.upTo_append_beyond _ u

theorem line_around : (around u c v).line = u ++ c :: v := by
  have hrest : (around u c v).behind ++ (around u c v).rest = v := Text.upTo_append_beyond _ v
  rw [line, snippet, List.append_assoc, List.cons_append, hrest, ← List.append_assoc,
    opening_around]
  rfl

theorem offset_around : (around u c v).offset = Text.byteLength u := by
  rw [offset, opening_around]

/-- Rounded down, the offset in front of the window is where the window begins. -/
theorem floorBoundary_front :
    Text.floorBoundary (u ++ c :: v) (Text.byteLength u - Report.reach) =
      Text.byteLength (around u c v).front := by
  rw [Text.floorBoundary_eq, Text.upTo_append_of_le (Nat.sub_le _ _)]
  rfl

/-- The character itself is always within reach, so the opening up to there goes beyond it. -/
theorem upTo_reach : Text.upTo (Text.byteLength u + Report.reach) (u ++ c :: v) =
    u ++ c :: (around u c v).behind := by
  have hsize : c.utf8Size ≤ Report.reach := Nat.le_trans c.utf8Size_le_four (by decide)
  rw [Text.upTo_append, Text.upTo, if_pos hsize]
  rfl

/-- Rounded down, the offset behind the window is where the window ends. -/
theorem floorBoundary_back :
    Text.floorBoundary (u ++ c :: v)
        (min (Text.byteLength u + Report.reach) (Text.byteLength (u ++ c :: v))) =
      Text.byteLength (around u c v).front + Text.byteLength (around u c v).snippet := by
  have hlength : Text.byteLength (u ++ c :: (around u c v).behind) =
      Text.byteLength (around u c v).front + Text.byteLength (around u c v).snippet := by
    have hparts := congrArg Text.byteLength (opening_around u c v)
    rw [Text.byteLength_append] at hparts
    rw [snippet, Text.byteLength_append, Text.byteLength_append, ← hparts, Nat.add_assoc]
    rfl
  rw [Text.floorBoundary_eq, ← hlength, ← upTo_reach]
  rcases Nat.le_total (Text.byteLength u + Report.reach) (Text.byteLength (u ++ c :: v)) with h | h
  · rw [Nat.min_eq_left h]
  · rw [Nat.min_eq_right h, Text.upTo_of_le (Nat.le_refl _), Text.upTo_of_le h]

theorem windowBefore_eq :
    Report.windowBefore (u ++ c :: v) (Text.byteLength u) = (around u c v).before := by
  have hfront : Text.upTo (Text.byteLength u - Report.reach) (u ++ c :: v) =
      (around u c v).front := Text.upTo_append_of_le (Nat.sub_le _ _) _
  have hbeyond := Text.beyond_byteLength (around u c v).front (around u c v).before
  rw [opening_around] at hbeyond
  rw [Report.windowBefore, hfront, Text.upTo_byteLength, hbeyond]

theorem windowFrom_eq :
    Report.windowFrom (u ++ c :: v) (Text.byteLength u) = c :: (around u c v).behind := by
  rw [Report.windowFrom, upTo_reach, Text.beyond_byteLength]

end Around

/-! ## The line of the window -/

theorem heading_eq : heading = [' ', ' ', 'n', 'e', 'a', 'r', ':', ' ', '\''] := by decide

theorem newline_not_mem_near (w : Window) : '\n' ∉ w.near := by
  have hshown (c : Char) : shown c ≠ '\n' := by
    unfold shown
    split_ifs with hc
    · decide
    · exact hc
  intro h
  rw [near, heading_eq, List.mem_append, List.mem_append] at h
  obtain hheading | hsnippet | hquote := h
  · exact absurd hheading (by decide)
  · obtain ⟨c, -, hc⟩ := List.mem_map.mp hsnippet
    exact hshown c hc
  · exact absurd hquote (by decide)

/-- In the line of the window, the character stands behind the heading and what is shown first. -/
theorem getElem?_near (w : Window) :
    w.near[2 + w.before.length + 7]? = some (shown w.char) := by
  have hsplit : w.near =
      (heading ++ w.before.map shown) ++ shown w.char :: (w.behind.map shown ++ ['\'']) := by
    rw [near, snippet, List.map_append, List.map_cons, List.append_assoc, List.append_assoc,
      List.cons_append]
  have hcolumn : 2 + w.before.length + 7 = (heading ++ w.before.map shown).length := by
    rw [List.length_append, List.length_map, heading_eq]
    simp only [List.length_cons, List.length_nil]
    omega
  rw [hsplit, hcolumn, List.getElem?_append_right (Nat.le_refl _), Nat.sub_self]
  rfl

end Window

namespace Report

/-- The place of a fault that can only be named. -/
def endOfInput (n : Nat) : Text :=
  "\n  at position ".toList ++ Text.numeral n ++ " (end of input)".toList

/-- The two forms of a place differ in the first letter. -/
theorem near_ne_endOfInput {w : Window} {m : Nat} {t t' : Text} :
    '\n' :: (w.near ++ t) ≠ endOfInput m ++ t' := by
  have hend : "\n  at position ".toList =
      ['\n', ' ', ' ', 'a', 't', ' ', 'p', 'o', 's', 'i', 't', 'i', 'o', 'n', ' '] := by decide
  unfold endOfInput
  rw [Window.near, Window.heading_eq, hend]
  simp

theorem place_of_boundary {line : Text} {n : Nat} (hn : n < Text.byteLength line)
    (hboundary : Text.isBoundary n line = true) : place line n = pointer line n := by
  rw [place, if_pos]
  rw [Bool.and_eq_true, decide_eq_true_eq]
  exact ⟨hn, hboundary⟩

theorem pointer_eq {line : Text} {n : Nat} {w : Window} (hbefore : windowBefore line n = w.before)
    (hfrom : windowFrom line n = w.char :: w.behind) :
    pointer line n = '\n' :: (w.near ++ '\n' ::
      (List.replicate (2 + w.before.length + 7) ' ' ++ ['^'])) := by
  have hheading : "\n  near: '".toList = '\n' :: Window.heading := by
    rw [Window.heading_eq]
    decide
  have hsnippet : showNewlines (w.before ++ w.char :: w.behind) = w.snippet.map Window.shown := rfl
  unfold pointer
  rw [hbefore, hfrom, hsnippet, hheading, Window.near]
  simp only [List.append_assoc, List.cons_append, List.nil_append]

end Report

/-! ## What a report shows -/

/-- The report shows the window of the command line around the character at byte offset `n`, and
points at that character. The parts of the line that it shows and counts are cut from it between
characters; the character stands in the column of the caret below; and the offset is not merely
named as one at the end. -/
structure PointsAt (r : Report) (line : Text) (n : Nat) (w : Window) : Prop where
  line_eq : w.line = line
  offset_eq : w.offset = n
  sliced : Text.slice? (Text.floorBoundary line (n - 15))
    (Text.floorBoundary line (min (n + 15) line.byteLength)) line = some w.snippet
  counted : Text.slice? (Text.floorBoundary line (n - 15)) n line = some w.before
  one_line : '\n' ∉ w.near
  pointer : ∃ column,
    r.render line = r.headline ++ '\n' :: (w.near ++ '\n' :: (List.replicate column ' ' ++ '^' ::
      r.hintLine)) ∧
    w.near[column]? = some (Window.shown w.char)
  not_end : ∀ m, r.render line ≠ r.headline ++ (Report.endOfInput m ++ r.hintLine)

theorem Report.render_of_position {r : Report} {n : Nat} (h : r.position = some n) (line : Text) :
    r.render line = r.headline ++ (place line n ++ r.hintLine) := by
  rw [render, h, List.append_assoc]

/-- A report with a place in front of a character points at the character. -/
theorem pointsAt_around {r : Report} {u v : Text} {c : Char}
    (h : r.position = some (Text.byteLength u)) :
    PointsAt r (u ++ c :: v) (Text.byteLength u) (.around u c v) := by
  have hn := Text.byteLength_lt_append_cons u c v
  have hrender : r.render (u ++ c :: v) = r.headline ++ '\n' :: ((Window.around u c v).near ++
      '\n' :: (List.replicate (2 + (Window.around u c v).before.length + 7) ' ' ++
        '^' :: r.hintLine)) := by
    rw [Report.render_of_position h, Report.place_of_boundary hn (Text.isBoundary_byteLength u _),
      Report.pointer_eq (Window.windowBefore_eq u c v) (Window.windowFrom_eq u c v)]
    simp only [List.append_assoc, List.cons_append, List.nil_append]
  refine
    { line_eq := Window.line_around u c v
      offset_eq := Window.offset_around u c v
      sliced := ?sliced
      counted := ?counted
      one_line := Window.newline_not_mem_near _
      pointer := ⟨_, hrender, Window.getElem?_near _⟩
      not_end := ?not_end }
  case sliced =>
    have hslice := Text.slice?_append (Window.around u c v).front (Window.around u c v).snippet
      (Window.around u c v).rest
    rwa [← Window.floorBoundary_back, ← Window.floorBoundary_front, ← Window.line,
      Window.line_around] at hslice
  case counted =>
    have hslice := Text.slice?_append (Window.around u c v).front (Window.around u c v).before
      (c :: v)
    rwa [← Text.byteLength_append, ← List.append_assoc, Window.opening_around,
      ← Window.floorBoundary_front] at hslice
  case not_end =>
    intro m hend
    rw [hrender] at hend
    exact Report.near_ne_endOfInput (List.append_cancel_left hend)

/-! ## Lines that are refused -/

/-- A group that is open was opened by a delimiter in its place. -/
theorem Reader.opens_after {style : GroupStyle} {t : Text} {g : OpenGroup}
    (hg : (after style t).opened = some g) :
    ∃ u v, t = u ++ style.delimiter :: v ∧ Text.byteLength u = g.start := by
  induction t using List.reverseRecOn generalizing g with
  | nil => exact absurd hg (by simp [after])
  | append_singleton t c ih =>
    rw [after_append] at hg
    obtain ⟨hstart, rfl⟩ | ⟨x, hx, hstart⟩ := step_start hg
    · exact ⟨t, [], rfl, by rw [hstart, offset_after]⟩
    · obtain ⟨u, v, rfl, hu⟩ := ih hx
      exact ⟨u, v ++ [c], by rw [List.append_assoc, List.cons_append], hu.trans hstart.symm⟩

/-- A line is refused for a group that a delimiter in it opens. -/
theorem unterminated_of_read {style : GroupStyle} {line : Text} {f : Fault}
    (h : RawTemplate.read style line = .error f) :
    ∃ u v, line = u ++ style.delimiter :: v ∧
      f = .unterminatedGroup style.delimiter (Text.byteLength u) := by
  rw [RawTemplate.read, ← Reader.after, Reader.finish] at h
  cases hopened : (Reader.after style line).opened with
  | none =>
    simp only [hopened] at h
    exact absurd h (by simp)
  | some g =>
    simp only [hopened] at h
    obtain ⟨u, v, hline, hstart⟩ := Reader.opens_after hopened
    exact ⟨u, v, hline, hstart ▸ (Except.error.inj h).symm⟩

/-! ## The character under the caret -/

/-- A report with a place in front of some character of the line shows a window of the line, with
newlines as arrows and the caret below that character; no part that is cut for it leaves the line or
splits a character. The fault of a line that cannot be read has such a place, at a delimiter, so its
report never names the end of the input. -/
theorem render_pointsAt :
    (∀ (r : Report) (line : Text) (n : Nat), r.position = some n → n < line.byteLength →
      Text.isBoundary n line = true → ∃ w, PointsAt r line n w) ∧
    ∀ (style : GroupStyle) (line : Text) (f : Fault), RawTemplate.read style line = .error f →
      f.kind = .parse ∧
        ∃ n w, f.report.position = some n ∧ n < line.byteLength ∧
          Text.isBoundary n line = true ∧ PointsAt f.report line n w ∧
            w.char = style.delimiter := by
  constructor
  · intro r line n hposition hn hboundary
    obtain ⟨u, c, v, rfl, rfl⟩ := Text.exists_of_lt hn hboundary
    exact ⟨_, pointsAt_around hposition⟩
  · intro style line f h
    obtain ⟨u, v, rfl, rfl⟩ := unterminated_of_read h
    have hn := Text.byteLength_lt_append_cons u style.delimiter v
    exact ⟨rfl, _, _, rfl, hn, Text.isBoundary_byteLength u _, pointsAt_around rfl, rfl⟩

/-- Both edges of the window fall into a character of four bytes, and a newline stands in front of
the delimiter that closes nothing. -/
theorem render_pointsAt_wide :
    let line : Text := "😀x😀😀ab\n@c d😀😀😀".toList
    (∃ w, PointsAt ⟨.io, [], none, some 15⟩ line 15 w) ∧
      ∃ f n w, RawTemplate.read {} line = .error f ∧ f.report.position = some n ∧
        PointsAt f.report line n w ∧ w.char = '@' := by
  intro line
  have hn : 15 < line.byteLength := by decide
  have hboundary : Text.isBoundary 15 line = true := by decide
  obtain ⟨f, hf⟩ : ∃ f, RawTemplate.read {} line = .error f := ⟨_, rfl⟩
  obtain ⟨-, n, w, hposition, -, -, hpoints, hchar⟩ := render_pointsAt.2 {} line f hf
  exact ⟨render_pointsAt.1 ⟨.io, [], none, some 15⟩ line 15 rfl hn hboundary,
    f, n, w, hf, hposition, hpoints, hchar⟩

example : Report.place "😀x😀😀ab\n@c d😀😀😀".toList 16 =
    "\n  near: '😀x😀😀ab↵@c d😀😀'\n                ^".toList := by
  decide +kernel

end Fanout
