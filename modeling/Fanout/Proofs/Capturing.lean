import Fanout.Proofs.Directories
import Fanout.Proofs.Grammar
import Fanout.Proofs.Moving

/-!
# The paths that groups take

The text glued to the front of a group is the longest ending of the literal there that nothing
stops. A quote or a blank stops it unless it is escaped; between quotes, an ending that begins as a
path does runs on over blanks. The reader keeps no such ending: it starts anew behind each character
that stops one.

* `Scanner.EndsLongest p`: the longest ending without an unescaped character with `p`.
* `Reader.Gathers`: what a reader has gathered is such an ending, for quotes and for quotes and
  blanks. Each character keeps it (`Gathers.step`), and so does a literal (`Gathers.foldl`).
* `Text.scannerAt`: the scanner in front of each stretch of a line, fed with all of the line up to
  there. `Takes`: what a group takes from the literal in front of it.
* `Behind`: the reader behind the first groups of a line. Each group keeps it (`Behind.group`), and
  so do all (`behind_front`).
* `read_takes`: the groups of a line, and what absorbing their paths leaves.
-/

namespace Fanout

/-! ## Endings that nothing stops -/

namespace Scanner

variable {p : Char → Bool} {s : Scanner} {t u : Text}

/-- Each character of the text with `p` is taken as an escaped literal. -/
def Passes (p : Char → Bool) : Scanner → Text → Prop
  | _, [] => True
  | s, c :: t => (p c = true → s.escapes c true = true) ∧ Passes p (s.next c true) t

theorem passes_append : s.Passes p (t ++ u) ↔ s.Passes p t ∧ (s.run true t).Passes p u := by
  induction t generalizing s with
  | nil => simp [Passes]
  | cons c t ih => simp [Passes, ih, and_assoc]

/-- `u` is an ending of `t`, and each of its characters with `p` is escaped where it stands. -/
def Ends (p : Char → Bool) (s : Scanner) (t u : Text) : Prop :=
  ∃ v, t = v ++ u ∧ (s.run true v).Passes p u

/-- `u` is the longest such ending of `t`. -/
def EndsLongest (p : Char → Bool) (s : Scanner) (t u : Text) : Prop :=
  s.Ends p t u ∧ ∀ w, s.Ends p t w → w.length ≤ u.length

theorem ends_nil (t : Text) : s.Ends p t [] := ⟨t, (List.append_nil t).symm, True.intro⟩

theorem Ends.concat (h : s.Ends p t u) {c : Char}
    (hc : p c = true → (s.run true t).escapes c true = true) : s.Ends p (t ++ [c]) (u ++ [c]) := by
  obtain ⟨v, rfl, hu⟩ := h
  refine ⟨v, List.append_assoc .., ?_⟩
  rw [passes_append, ← run_append]
  exact ⟨hu, hc, True.intro⟩

theorem Ends.eq_nil_or_concat {c : Char} {w : Text} (h : s.Ends p (t ++ [c]) w) :
    w = [] ∨ ∃ u, w = u ++ [c] ∧ s.Ends p t u ∧
      (p c = true → (s.run true t).escapes c true = true) := by
  obtain ⟨v, ht, hw⟩ := h
  rcases List.eq_nil_or_concat w with rfl | ⟨u, x, rfl⟩
  · exact .inl rfl
  · rw [List.concat_eq_append] at ht hw ⊢
    rw [← List.append_assoc] at ht
    obtain ⟨rfl, hx⟩ := List.append_inj' ht rfl
    obtain rfl : c = x := by simpa using hx
    rw [passes_append, ← run_append] at hw
    exact .inr ⟨u, rfl, ⟨v, rfl, hw.1⟩, hw.2.1⟩

theorem endsLongest_nil : s.EndsLongest p [] [] := by
  refine ⟨ends_nil [], ?_⟩
  rintro w ⟨v, ht, -⟩
  rw [(List.nil_eq_append_iff.mp ht).2]

/-- A character joins the longest ending, or stops it. -/
theorem EndsLongest.concat (h : s.EndsLongest p t u) (c : Char) :
    s.EndsLongest p (t ++ [c])
      (if p c && !(s.run true t).escapes c true then [] else u ++ [c]) := by
  cases hstops : p c && !(s.run true t).escapes c true with
  | true =>
    refine ⟨ends_nil _, fun w hw => ?_⟩
    obtain rfl | ⟨w, -, -, hc⟩ := hw.eq_nil_or_concat
    · exact Nat.le_refl 0
    · obtain ⟨hp, hescapes⟩ : p c = true ∧ (s.run true t).escapes c true = false := by
        simpa using hstops
      rw [hc hp] at hescapes
      cases hescapes
  | false =>
    have hc : p c = true → (s.run true t).escapes c true = true := by simpa using hstops
    refine ⟨h.1.concat hc, fun w hw => ?_⟩
    obtain rfl | ⟨w, rfl, hw, -⟩ := hw.eq_nil_or_concat
    · exact Nat.zero_le _
    · have hle := h.2 w hw
      simpa using hle

end Scanner

/-! ## What a reader gathers -/

/-- What the group takes for its path from the literal `t` in front of it, when `s` is the scanner
in front of the literal: the longest ending without an unescaped quote or blank, or, between quotes,
the longest one without an unescaped quote if that begins as a path does. It needs a slash. -/
def Takes (s : Scanner) (t : Text) (g : RawGroup) : Prop :=
  ∃ run quoted, s.EndsLongest endsRun t run ∧ s.EndsLongest isQuote t quoted ∧
    let lead := if g.quote ≠ .plain ∧ beginsAsPath quoted = true then quoted else run
    g.externalPath = if '/' ∈ lead then some lead else none

namespace Reader

variable {style : GroupStyle} {s : Scanner} {r : Reader}

/-- What may become the lead of a group is the longest ending of the literal that nothing stops, for
the scanner `s` in front of the literal. -/
structure Gathers (s : Scanner) (r : Reader) : Prop where
  opened : r.opened = none
  scanner : r.scanner = s.run true r.literal.reverse
  quoted : s.EndsLongest isQuote r.literal.reverse r.quoted.reverse
  run : s.EndsLongest endsRun r.literal.reverse r.run.reverse

theorem Gathers.step (h : r.Gathers s) (hd : isDelimiter style.delimiter = true) {c : Char}
    (hc : c = style.delimiter → r.scanner.escaping = true) : (r.step style c).Gathers s := by
  rw [step_kept hd h.opened hc]
  have hquoted := h.quoted.concat c
  have hrun := h.run.concat c
  rw [← h.scanner] at hquoted hrun
  refine ⟨h.opened, ?_, ?_, ?_⟩
  · simp [h.scanner, Scanner.run_append]
  · rw [List.reverse_cons, apply_ite List.reverse, List.reverse_nil, List.reverse_cons]
    exact hquoted
  · rw [List.reverse_cons, apply_ite List.reverse, List.reverse_nil, List.reverse_cons]
    exact hrun

theorem Gathers.foldl (h : r.Gathers s) (hd : isDelimiter style.delimiter = true) {t : Text}
    (ht : Text.Lacks style.delimiter r.scanner.escaping t) :
    (t.foldl (Reader.step style) r).Gathers s := by
  induction t generalizing r with
  | nil => exact h
  | cons c t ih =>
    obtain ⟨hc, ht⟩ := ht
    obtain ⟨quoted, run, hstep⟩ := step_literal hd h.opened hc
    refine ih (h.step hd hc) ?_
    rw [hstep]
    rwa [Scanner.next_escaping]

/-- A literal and the whole group behind it: the group takes its path from the literal, and the
reader gathers anew. -/
theorem Gathers.group (h : r.Gathers s) (hempty : r.literal = []) (hs : s.escaping = false)
    (hd : isDelimiter style.delimiter = true) {l c : Text}
    (hl : Text.Lacks style.delimiter false l) (hls : Text.dangles false l = false)
    (hc : Text.Lacks style.delimiter false c) (hcs : Text.dangles false c = false) :
    ∃ r' g, (l ++ style.delimiter :: (c ++ [style.delimiter])).foldl (Reader.step style) r = r' ∧
      r'.Gathers (s.run true l) ∧ r'.literal = [] ∧
      r'.segments = r.segments ++ [.literal l, .slot r.groups.length] ∧
      r'.groups = r.groups ++ [g] ∧ Takes s l g := by
  have hscanner : r.scanner = s := by simpa [hempty] using h.scanner
  have hlacks : Text.Lacks style.delimiter r.scanner.escaping l := by rwa [hscanner, hs]
  have hgathers := h.foldl hd hlacks
  obtain ⟨hliteral, hsegments, hgroups⟩ : (l.foldl (Reader.step style) r).literal = l.reverse ∧
      (l.foldl (Reader.step style) r).segments = r.segments ∧
        (l.foldl (Reader.step style) r).groups = r.groups := by
    obtain ⟨quoted, run, hfold⟩ := foldl_literal hd h.opened hlacks
    simp [hfold, hempty]
  rw [List.foldl_append, List.foldl_cons]
  generalize l.foldl (Reader.step style) r = r₁ at hgathers hliteral hsegments hgroups
  obtain ⟨hopened, hscanner₁, hquoted, hrun⟩ := hgathers
  rw [hliteral, List.reverse_reverse] at hscanner₁ hquoted hrun
  have hescaping : r₁.scanner.escaping = false := by rw [hscanner₁, Scanner.run_escaping, hs, hls]
  have hclose (n : Nat) (g : OpenGroup) :=
    foldl_close (r := { r₁ with offset := n, opened := some g }) hd rfl hescaping hc hcs
  rw [step_lead hd hopened hescaping, hclose]
  refine ⟨_, _, rfl, ⟨rfl, hscanner₁, Scanner.endsLongest_nil, Scanner.endsLongest_nil⟩, rfl, ?_,
    congrArg (· ++ _) hgroups, r₁.run.reverse, r₁.quoted.reverse, hrun, hquoted, ?_⟩
  · simp [hliteral, hsegments, hgroups]
  · simp [OpenGroup.close, leadOf]

end Reader

/-! ## Stretches of a line -/

namespace Text

variable {d : Char} {line : Text}

/-- The scanner in front of stretch number `i`, fed with all of the line up to there. It tracks no
quotes inside a group, up to the delimiter that closes it. -/
def scannerAt (d : Char) (line : Text) : Nat → Scanner
  | 0 => .start
  | i + 1 => (scannerAt d line i).run (i % 2 = 0) (stretch d line i ++ [d])

theorem Stretches.getElem? : ∀ {e : Bool} {ts : List Text} {i : Nat} {t : Text},
    Stretches d e ts → e = false → ts[i]? = some t →
      Lacks d false t ∧ (i + 1 < ts.length → dangles false t = false)
  | _, [], _, _, h, _, _ => absurd h id
  | _, [_], 0, _, h, he, hi => by
    obtain rfl := Option.some.inj hi
    exact ⟨he ▸ h, fun hlt => absurd hlt (by simp)⟩
  | _, _ :: _ :: _, 0, _, h, he, hi => by
    obtain rfl := Option.some.inj hi
    obtain ⟨hlacks, hdangles, -⟩ := h
    rw [he] at hlacks hdangles
    exact ⟨hlacks, fun _ => hdangles⟩
  | _, _ :: _ :: _, i + 1, _, h, _, hi => by
    obtain ⟨-, -, hrest⟩ := h
    obtain ⟨hlacks, hdangles⟩ := Stretches.getElem? hrest rfl hi
    exact ⟨hlacks, fun hlt => hdangles (by simpa using hlt)⟩

theorem scannerAt_escaping (hd : d ≠ '\\') (line : Text) (i : Nat) :
    (scannerAt d line i).escaping = false := by
  cases i with
  | zero => rfl
  | succ i =>
    rw [scannerAt, Scanner.run_escaping, dangles_append, dangles_cons, dangles_nil,
      escapesNext_of_ne hd]

theorem lacks_stretch (hd : d ≠ '\\') {i : Nat} (hi : i ≤ (unescapedOffsets d line).length) :
    Lacks d false (stretch d line i) :=
  ((stretches_splitUnescaped hd line).getElem? rfl (getElem?_splitUnescaped hd hi)).1

theorem dangles_stretch (hd : d ≠ '\\') {i : Nat} (hi : i < (unescapedOffsets d line).length) :
    dangles false (stretch d line i) = false := by
  refine ((stretches_splitUnescaped hd line).getElem? rfl
    (getElem?_splitUnescaped hd hi.le)).2 ?_
  rw [← length_unescapedOffsets hd]
  omega

/-- A group leaves the scanner as the literal in front of it does. -/
theorem scannerAt_group (hd : isDelimiter d = true) {k : Nat}
    (hk : 2 * k + 1 < (unescapedOffsets d line).length) :
    scannerAt d line (2 * (k + 1)) =
      (scannerAt d line (2 * k)).run true (stretch d line (2 * k)) := by
  have hb := ne_backslash_of_isDelimiter hd
  have hliteral : ((scannerAt d line (2 * k)).run true (stretch d line (2 * k))).escaping =
      false := by
    rw [Scanner.run_escaping, scannerAt_escaping hb, dangles_stretch hb (by omega)]
  have hopening : scannerAt d line (2 * k + 1) =
      (scannerAt d line (2 * k)).run true (stretch d line (2 * k)) := by
    have heven : decide (2 * k % 2 = 0) = true := by simp
    rw [scannerAt, heven, Scanner.run_append, Scanner.run_cons, Scanner.run_nil,
      next_delimiter hd hliteral]
  have hodd : decide ((2 * k + 1) % 2 = 0) = false := by
    rw [decide_eq_false_iff_not]
    omega
  rw [show 2 * (k + 1) = 2 * k + 1 + 1 by omega, scannerAt, hodd, hopening, Scanner.run_append,
    Scanner.run_untracked hliteral (dangles_stretch hb hk), Scanner.run_cons, Scanner.run_nil,
    next_delimiter hd hliteral]

theorem join_map_range (d : Char) (f : Nat → Text) (n : Nat) :
    join [d] ((List.range (n + 1)).map f) =
      (List.range n).flatMap (fun i => f i ++ [d]) ++ f n := by
  induction n generalizing f with
  | zero => simp
  | succ n ih =>
    have hlist : (List.range (n + 1 + 1)).map f =
        f 0 :: f 1 :: (List.range n).map (fun i => f (i + 2)) := by
      simp [List.range_succ_eq_map, Function.comp_def]
    have htail : (List.range (n + 1)).map (fun i => f (i + 1)) =
        f 1 :: (List.range n).map (fun i => f (i + 2)) := by
      simp [List.range_succ_eq_map, Function.comp_def]
    have hnext := ih fun i => f (i + 1)
    rw [htail] at hnext
    rw [hlist, join_cons_cons, hnext, List.range_succ_eq_map, List.flatMap_cons, List.flatMap_map]
    simp

end Text

/-! ## Groups of a line -/

/-- Group number `k` of the line, behind the literal in front of it. -/
def groupText (d : Char) (line : Text) (k : Nat) : Text :=
  Text.stretch d line (2 * k) ++ d :: (Text.stretch d line (2 * k + 1) ++ [d])

/-- A line with `n` groups. -/
theorem flatMap_groupText {d : Char} (hd : d ≠ '\\') {line : Text} {n : Nat}
    (hn : (Text.unescapedOffsets d line).length = 2 * n) :
    (List.range n).flatMap (groupText d line) ++ Text.stretch d line (2 * n) = line := by
  have hpairs : ∀ m, (List.range (2 * m)).flatMap (fun i => Text.stretch d line i ++ [d]) =
      (List.range m).flatMap (groupText d line) := by
    intro m
    induction m with
    | zero => rfl
    | succ m ih =>
      rw [show 2 * (m + 1) = 2 * m + 1 + 1 by omega, List.range_succ, List.range_succ,
        List.range_succ, List.flatMap_append, List.flatMap_append, List.flatMap_append, ih]
      simp [groupText]
  have hjoin := Text.join_splitUnescaped hd line
  rwa [splitUnescaped_eq_range hd, hn, Text.join_map_range, hpairs] at hjoin

/-- Literals and slots in turn, beginning and ending with a literal. -/
def woven (n : Nat) (f : Nat → Text) : List Segment :=
  (List.range n).flatMap (fun k => [.literal (f k), .slot k]) ++ [.literal (f n)]

/-- The reader behind the first `k` groups of a line. -/
structure Behind (style : GroupStyle) (line : Text) (k : Nat) (r : Reader) : Prop where
  gathers : r.Gathers (Text.scannerAt style.delimiter line (2 * k))
  literal : r.literal = []
  segments : r.segments = (List.range k).flatMap fun j =>
    [.literal (Text.stretch style.delimiter line (2 * j)), .slot j]
  length_groups : r.groups.length = k
  takes : ∀ j g, r.groups[j]? = some g →
    Takes (Text.scannerAt style.delimiter line (2 * j))
      (Text.stretch style.delimiter line (2 * j)) g

section Line

variable {style : GroupStyle} {line : Text} {r : Reader} {k : Nat}
  (hd : isDelimiter style.delimiter = true)

include hd

theorem Behind.group (h : Behind style line k r)
    (hk : 2 * k + 1 < (Text.unescapedOffsets style.delimiter line).length) :
    Behind style line (k + 1) ((groupText style.delimiter line k).foldl (Reader.step style) r) := by
  have hb := ne_backslash_of_isDelimiter hd
  have hk' : 2 * k < (Text.unescapedOffsets style.delimiter line).length := by omega
  obtain ⟨r', g, hfold, hgathers, hliteral, hsegments, hgroups, htakes⟩ :=
    h.gathers.group h.literal (Text.scannerAt_escaping hb line _) hd
      (Text.lacks_stretch hb hk'.le) (Text.dangles_stretch hb hk')
      (Text.lacks_stretch hb hk.le) (Text.dangles_stretch hb hk)
  rw [groupText, hfold]
  refine ⟨?_, hliteral, ?_, ?_, fun j g' hg' => ?_⟩
  · rwa [Text.scannerAt_group hd hk]
  · rw [hsegments, h.segments, h.length_groups, List.range_succ, List.flatMap_append]
    simp
  · rw [hgroups, List.length_append, h.length_groups]
    rfl
  · rw [hgroups] at hg'
    by_cases hj : j < r.groups.length
    · rw [List.getElem?_append_left hj] at hg'
      exact h.takes j g' hg'
    · -- the group that was read last
      rw [List.getElem?_append_right (by omega), List.getElem?_singleton] at hg'
      split_ifs at hg' with hlast
      obtain rfl := Option.some.inj hg'
      obtain rfl : j = k := by
        have := h.length_groups
        omega
      exact htakes

theorem behind_front (hk : 2 * k ≤ (Text.unescapedOffsets style.delimiter line).length) :
    Behind style line k
      (((List.range k).flatMap (groupText style.delimiter line)).foldl (Reader.step style) {}) := by
  induction k with
  | zero =>
    exact ⟨⟨rfl, rfl, Scanner.endsLongest_nil, Scanner.endsLongest_nil⟩, rfl, rfl, rfl,
      fun j g hg => absurd hg (by simp)⟩
  | succ k ih =>
    rw [List.range_succ, List.flatMap_append, List.foldl_append, List.flatMap_singleton]
    exact (ih (by omega)).group hd (by omega)

/-- What is read of a line: its literals and slots in turn, and each group takes its path from the
literal in front of its slot. -/
theorem takes_of_read {raw : RawTemplate} (h : RawTemplate.read style line = .ok raw) :
    raw.segments = woven raw.groups.length (fun k => Text.stretch style.delimiter line (2 * k)) ∧
      ∀ k g, raw.groups[k]? = some g →
        Takes (Text.scannerAt style.delimiter line (2 * k))
          (Text.stretch style.delimiter line (2 * k)) g := by
  have hb := ne_backslash_of_isDelimiter hd
  have hlength := Text.length_unescapedOffsets hb line
  obtain ⟨n, hn⟩ : ∃ n, (Text.unescapedOffsets style.delimiter line).length = 2 * n := by
    by_contra hodd
    have heven : (Text.splitUnescaped style.delimiter line).length % 2 = 0 := by
      by_contra heven
      exact hodd ⟨(Text.unescapedOffsets style.delimiter line).length / 2, by omega⟩
    obtain ⟨p, hread, -⟩ := read_of_even hd heven
    rw [hread] at h
    cases h
  have hbehind := behind_front (k := n) hd hn.ge
  have hescaping : (((List.range n).flatMap (groupText style.delimiter line)).foldl
      (Reader.step style) {}).scanner.escaping = false := by
    rw [hbehind.gathers.scanner, hbehind.literal]
    exact Text.scannerAt_escaping hb line _
  have hlast := Reader.finish_literal hd hbehind.gathers.opened
    (hescaping ▸ Text.lacks_stretch hb hn.ge)
  rw [← List.foldl_append, flatMap_groupText hb hn] at hlast
  obtain rfl := Except.ok.inj (h.symm.trans hlast)
  refine ⟨?_, hbehind.takes⟩
  rw [hbehind.length_groups, hbehind.segments, hbehind.literal]
  rfl

end Line

/-! ## Absorbing -/

theorem Text.dropEnding_nil (t : Text) : Text.dropEnding [] t = t := by
  simpa using Text.dropEnding_append [] t

section Absorbing

variable {k n : Nat} {path t : Text} {ss us : List Segment}

theorem cutBefore_literal (hss : ss.head? ≠ some (.slot k)) (path t : Text) :
    cutBefore k path (.literal t :: ss) = .literal t :: cutBefore k path ss := by
  cases ss with
  | nil => rfl
  | cons s ss =>
    cases s with
    | literal u => rfl
    | slot j =>
      have hj : j ≠ k := fun h => hss (by simp [h])
      rw [cutBefore, if_neg hj]

/-- The literal in front of the first slot `k` is cut, and no other piece changes. -/
theorem cutBefore_append (hk : k ∉ slotsOf ss) :
    cutBefore k path (ss ++ .literal t :: .slot k :: us) =
      ss ++ .literal (Text.dropEnding path t) :: .slot k :: us := by
  induction ss with
  | nil => rw [List.nil_append, cutBefore, if_pos rfl, List.nil_append]
  | cons s ss ih =>
    cases s with
    | literal u =>
      have hhead : (ss ++ .literal t :: .slot k :: us).head? ≠ some (.slot k) := by
        cases ss with
        | nil => simp
        | cons s ss =>
          intro h
          obtain rfl : s = .slot k := by simpa using h
          rw [slotsOf_literal, slotsOf_slot] at hk
          exact hk List.mem_cons_self
      rw [List.cons_append, cutBefore_literal hhead, ih hk, List.cons_append]
    | slot j =>
      rw [slotsOf_slot, List.mem_cons, not_or] at hk
      rw [List.cons_append, cutBefore, if_neg (Ne.symm hk.1), ih hk.2, List.cons_append]

/-- Literals and slots around literal number `k`. -/
theorem woven_eq (f : Nat → Text) (k m : Nat) :
    woven (k + 1 + m) f =
      (List.range k).flatMap (fun i => [.literal (f i), .slot i]) ++
        .literal (f k) :: .slot k ::
          ((List.range m).flatMap (fun i => [.literal (f (k + 1 + i)), .slot (k + 1 + i)]) ++
            [.literal (f (k + 1 + m))]) := by
  rw [woven, List.range_add, List.range_succ]
  simp [List.flatMap_map]

theorem cutBefore_woven (hk : k < n) (path : Text) (f : Nat → Text) :
    cutBefore k path (woven n f) =
      woven n (Function.update f k (Text.dropEnding path (f k))) := by
  obtain ⟨m, rfl⟩ : ∃ m, n = k + 1 + m := ⟨n - (k + 1), by omega⟩
  have hother {i : Nat} (hi : i ≠ k) :
      Function.update f k (Text.dropEnding path (f k)) i = f i := Function.update_of_ne hi _ _
  have hbefore : (List.range k).flatMap (fun i =>
      [Segment.literal (Function.update f k (Text.dropEnding path (f k)) i), .slot i]) =
        (List.range k).flatMap fun i => [.literal (f i), .slot i] :=
    List.flatMap_congr fun i hi => by rw [hother (List.mem_range.mp hi).ne]
  have hnew : k ∉ slotsOf ((List.range k).flatMap fun i => [Segment.literal (f i), .slot i]) := by
    rw [mem_slotsOf]
    simp
  have hbehind (i : Nat) : Function.update f k (Text.dropEnding path (f k)) (k + 1 + i) =
      f (k + 1 + i) := hother (by omega)
  rw [woven_eq, woven_eq, cutBefore_append hnew, hbefore, Function.update_self]
  simp only [hbehind]

namespace RawTemplate

variable {raw : RawTemplate} {f : Nat → Text} {A : List Nat}

theorem absorb_woven (h : raw.segments = woven raw.groups.length f) (k : Nat) :
    raw.absorb k =
      ⟨woven raw.groups.length
        (Function.update f k (Text.dropEnding ((raw.path? k).getD []) (f k))), raw.groups⟩ := by
  cases hpath : raw.path? k with
  | none =>
    rw [path?] at hpath
    rw [absorb, hpath, Option.getD_none, Text.dropEnding_nil, Function.update_eq_self, ← h]
  | some path =>
    obtain ⟨g, hg, -⟩ := Option.bind_eq_some_iff.mp hpath
    have hk : k < raw.groups.length := (List.getElem?_eq_some_iff.mp hg).1
    rw [path?] at hpath
    rw [absorb, hpath, Option.getD_some, ← cutBefore_woven hk, ← h]

/-- When the paths of the groups in `A` have moved, each of them is cut from the literal in front of
its own slot. -/
theorem foldl_absorb_woven (hA : A.Nodup) (h : raw.segments = woven raw.groups.length f) :
    A.foldl absorb raw =
      ⟨woven raw.groups.length fun k => Text.dropEnding (raw.taken A k) (f k), raw.groups⟩ := by
  induction A generalizing raw f with
  | nil =>
    simp only [taken, List.not_mem_nil, if_false, Text.dropEnding_nil, List.foldl_nil]
    rw [← h]
  | cons k A ih =>
    obtain ⟨hk, hA⟩ := List.nodup_cons.mp hA
    have habsorb := absorb_woven h k
    have hpaths : (raw.absorb k).path? = raw.path? := path?_absorb raw k
    have hgroups : (raw.absorb k).groups = raw.groups := by rw [habsorb]
    have hsegments := congrArg segments habsorb
    rw [← hgroups] at hsegments
    rw [List.foldl_cons, ih hA hsegments, hgroups]
    congr 2
    funext j
    by_cases hj : j = k
    · subst hj
      simp [taken, hk, Text.dropEnding_nil]
    · simp [taken, hpaths, hj]

end RawTemplate

end Absorbing

/-! ## Whole lines -/

/-- The path that a group has taken is an ending of the literal. -/
theorem Takes.exists_append {s : Scanner} {t path : Text} {g : RawGroup} (h : Takes s t g)
    (hpath : g.externalPath = some path) : ∃ u, t = u ++ path := by
  obtain ⟨run, quoted, ⟨⟨v, hrun, -⟩, -⟩, ⟨⟨v', hquoted, -⟩, -⟩, htakes⟩ := h
  simp only [hpath] at htakes
  split_ifs at htakes with hquotes
  · exact ⟨v', (Option.some.inj htakes).symm ▸ hquoted⟩
  · exact ⟨v, (Option.some.inj htakes).symm ▸ hrun⟩

/-- What is read of a line is its literals and slots in turn. Each group takes its path from the
literal in front of its slot: the longest ending that nothing stops, if that has a slash. Absorbing
the paths of some groups, in any order, cuts them from these literals and changes nothing else. -/
theorem read_takes {style : GroupStyle} (hd : isDelimiter style.delimiter = true) {line : Text}
    {raw : RawTemplate} (h : RawTemplate.read style line = .ok raw) :
    raw.segments = woven raw.groups.length (fun k => Text.stretch style.delimiter line (2 * k)) ∧
      (∀ k g, raw.groups[k]? = some g →
        Takes (Text.scannerAt style.delimiter line (2 * k))
          (Text.stretch style.delimiter line (2 * k)) g) ∧
      (∀ A : List Nat, A.Nodup → ∃ kept : Nat → Text,
        (∀ k, Text.stretch style.delimiter line (2 * k) = kept k ++ raw.taken A k) ∧
          A.foldl RawTemplate.absorb raw = ⟨woven raw.groups.length kept, raw.groups⟩) ∧
      ∀ A B : List Nat, A.Nodup → B.Perm A →
        B.foldl RawTemplate.absorb raw = A.foldl RawTemplate.absorb raw := by
  obtain ⟨hsegments, htakes⟩ := takes_of_read hd h
  refine ⟨hsegments, htakes, fun A hA => ?_, fun A B hA hB => ?_⟩
  · refine ⟨_, fun k => ?_, RawTemplate.foldl_absorb_woven hA hsegments⟩
    obtain ⟨u, hu⟩ : ∃ u, Text.stretch style.delimiter line (2 * k) = u ++ raw.taken A k := by
      unfold RawTemplate.taken
      split_ifs
      · cases hpath : raw.path? k with
        | none => exact ⟨_, (List.append_nil _).symm⟩
        | some path =>
          obtain ⟨g, hg, hpath⟩ := Option.bind_eq_some_iff.mp hpath
          exact (htakes k g hg).exists_append hpath
      · exact ⟨_, (List.append_nil _).symm⟩
    rw [hu, Text.dropEnding_append]
  · have htaken : raw.taken B = raw.taken A := by
      funext k
      simp only [RawTemplate.taken, hB.mem_iff]
    rw [RawTemplate.foldl_absorb_woven hA hsegments,
      RawTemplate.foldl_absorb_woven (hB.nodup_iff.mpr hA) hsegments, htaken]

/-- A path between quotes that has a blank, and behind it one without quotes whose blank is
escaped. -/
def blankPathsLine : Text := "cat '/my dir/@x@' \\ b/@y@".toList

/-- What is read of it. -/
def blankPathsTemplate : RawTemplate where
  segments := [.literal "cat '/my dir/".toList, .slot 0, .literal "' \\ b/".toList, .slot 1,
    .literal []]
  groups :=
    [⟨false, [['x']], some "/my dir/".toList, .single, 13⟩,
      ⟨false, [['y']], some "\\ b/".toList, .plain, 22⟩]

/-- Both blanks belong to the paths, and both paths are cut, whichever moves first. -/
theorem read_takes_blankPaths :
    isDelimiter '@' = true ∧ RawTemplate.read {} blankPathsLine = .ok blankPathsTemplate ∧
      Takes (Text.scannerAt '@' blankPathsLine 2) (Text.stretch '@' blankPathsLine 2)
        ⟨false, [['y']], some "\\ b/".toList, .plain, 22⟩ ∧
      [1, 0].foldl RawTemplate.absorb blankPathsTemplate =
        [0, 1].foldl RawTemplate.absorb blankPathsTemplate ∧
      ([1, 0].foldl RawTemplate.absorb blankPathsTemplate).segments =
        [.literal "cat '".toList, .slot 0, .literal "' ".toList, .slot 1, .literal []] := by
  have hd : isDelimiter '@' = true := by decide
  have hread : RawTemplate.read {} blankPathsLine = .ok blankPathsTemplate := by cbv
  obtain ⟨-, htakes, -, horder⟩ := @read_takes {} hd _ _ hread
  exact ⟨hd, hread, htakes 1 _ rfl, horder [0, 1] [1, 0] (by decide) (by decide), by decide⟩

end Fanout
