import Fanout.Proofs.Reading

/-!
# The grammar of templates

Which template a line is, said by the byte offsets of its unescaped delimiters alone: they open and
close groups in turn, and what stands between them is kept to the character.

* `GroupAt`: what group number `k` of the line is.
* `Parses`: what the template of a line with `n` groups is.
* `Tiles`: the stretches of a line and the delimiters between them are the line.
* `read_grammar`: a line with an even number of unescaped delimiters is read as that template, and
  any other is refused at the last of them.
-/

namespace Fanout

/-- Group number `k` of the line: it opens at delimiter number `2 * k`, in the quotes that the
literals before it leave open, and its terms are the pieces between unescaped commas of what stands
before the next delimiter, without hidden marker and without the quoting of the word around it. -/
structure GroupAt (style : GroupStyle) (line : Text) (k : Nat) (g : RawGroup) : Prop where
  start : (Text.unescapedOffsets style.delimiter line)[2 * k]? = some g.start
  quote : g.quote = (Scanner.run {} true ((List.range (k + 1)).flatMap
    fun i => Text.stretch style.delimiter line (2 * i))).context
  hidden : g.hidden =
    (stripMarker style.hiddenMarker (Text.stretch style.delimiter line (2 * k + 1))).1
  terms : g.terms = Text.splitUnescaped ',' (unquoteBody g.quote
    (stripMarker style.hiddenMarker (Text.stretch style.delimiter line (2 * k + 1))).2)

/-- The template of a line with `n` groups: literals and slots in turn, beginning and ending with a
literal, and the groups in the order of their slots. -/
structure Parses (style : GroupStyle) (line : Text) (n : Nat) (raw : RawTemplate) : Prop where
  segments : raw.segments =
    (List.range n).flatMap
        (fun k => [.literal (Text.stretch style.delimiter line (2 * k)), .slot k])
      ++ [.literal (Text.stretch style.delimiter line (2 * n))]
  length_groups : raw.groups.length = n
  groups : ∀ k g, raw.groups[k]? = some g → GroupAt style line k g

/-- The unescaped delimiters part the line into its stretches, between characters only. -/
structure Tiles (d : Char) (line : Text) : Prop where
  boundary : ∀ p ∈ Text.unescapedOffsets d line,
    Text.isBoundary p line = true ∧ Text.isBoundary (p + d.utf8Size) line = true
  join : Text.join [d] ((List.range ((Text.unescapedOffsets d line).length + 1)).map
    (Text.stretch d line)) = line

/-! ## Stretches by number -/

theorem segmentsFrom_eq {f : Nat → Text} {n : Nat} (k : Nat) :
    segmentsFrom k ((List.range (2 * n + 1)).map f) =
      (List.range n).flatMap (fun i => [.literal (f (2 * i)), .slot (k + i)])
        ++ [.literal (f (2 * n))] := by
  induction n generalizing f k with
  | zero => rfl
  | succ n ih =>
    have hnext := ih (f := fun i => f (i + 2)) (k + 1)
    have hlist : (List.range (2 * (n + 1) + 1)).map f =
        f 0 :: f 1 :: (List.range (2 * n + 1)).map fun i => f (i + 2) := by
      rw [show 2 * (n + 1) + 1 = 2 * n + 1 + 1 + 1 by omega, List.range_succ_eq_map,
        List.map_cons, List.map_map, List.range_succ_eq_map, List.map_cons, List.map_map]
      rfl
    have hshift (i : Nat) : 2 * i + 2 = 2 * (i + 1) := by omega
    have hslot (i : Nat) : k + 1 + i = k + (i + 1) := by omega
    rw [hlist, segmentsFrom, hnext, List.range_succ_eq_map, List.flatMap_cons, List.flatMap_map]
    simp only [hshift, hslot, List.cons_append, List.nil_append, Nat.mul_zero, Nat.add_zero,
      Nat.succ_eq_add_one]

/-- Spot number `k` opens at the end of stretch number `2 * k`, around the next stretch, and in the
quotes that every other stretch up to there leaves open. -/
theorem getElem?_spotsFrom {d : Char} : ∀ {k : Nat} {s : Scanner} {n : Nat} {ts : List Text}
    {x : Spot}, ts.length % 2 = 1 → (spotsFrom d s n ts)[k]? = some x →
      (Text.edges d n ts)[2 * k]? = some x.start ∧ ts[2 * k + 1]? = some x.content ∧
        x.quote =
          (s.run true ((List.range (k + 1)).flatMap fun i => ts.getD (2 * i) [])).context
  | _, _, _, [], _, _, h => absurd h (by simp [spotsFrom])
  | _, _, _, [_], _, _, h => absurd h (by simp [spotsFrom])
  | _, _, _, [_, _], _, hodd, _ => absurd hodd (by simp)
  | 0, s, n, l :: c :: l' :: ts, x, _, h => by
    obtain rfl : _ = x := by simpa [spotsFrom] using h
    exact ⟨rfl, rfl, by simp⟩
  | k + 1, s, n, l :: c :: l' :: ts, x, hodd, h => by
    have hodd' : (l' :: ts).length % 2 = 1 := by
      simp only [List.length_cons] at hodd ⊢
      omega
    obtain ⟨hstart, hcontent, hquote⟩ := getElem?_spotsFrom (d := d) (k := k) hodd' (by
      simpa [spotsFrom] using h)
    have htwo (i : Nat) : 2 * (i + 1) = 2 * i + 1 + 1 := by omega
    rw [htwo, Text.edges_cons_cons, Text.edges_cons_cons, List.getElem?_cons_succ,
      List.getElem?_cons_succ, List.getElem?_cons_succ, List.getElem?_cons_succ]
    refine ⟨hstart, hcontent, ?_⟩
    rw [hquote, List.range_succ_eq_map (n := k + 1), List.flatMap_cons, List.flatMap_map,
      Scanner.run_append]
    simp only [htwo, Nat.mul_zero, List.getD_cons_zero, List.getD_cons_succ]

/-- The stretches of a line, by number. -/
theorem splitUnescaped_eq_range {d : Char} (hd : d ≠ '\\') (line : Text) :
    Text.splitUnescaped d line =
      (List.range ((Text.unescapedOffsets d line).length + 1)).map (Text.stretch d line) := by
  have hstretches := Text.stretches_splitUnescaped hd line
  have hlength := Text.length_unescapedOffsets hd line
  refine List.ext_getElem? fun i => ?_
  cases hi : (Text.splitUnescaped d line)[i]? with
  | none =>
    have hle := List.getElem?_eq_none_iff.mp hi
    exact (List.getElem?_eq_none_iff.mpr (by simpa [hlength] using hle)).symm
  | some t =>
    have hlt := (List.getElem?_eq_some_iff.mp hi).1
    have hstretch := Text.stretch_join hd hstretches hi
    rw [Text.join_splitUnescaped hd] at hstretch
    rw [List.getElem?_map, List.getElem?_range (by omega), Option.map_some, hstretch]

theorem getElem?_splitUnescaped {d : Char} (hd : d ≠ '\\') {line : Text} {i : Nat}
    (hi : i ≤ (Text.unescapedOffsets d line).length) :
    (Text.splitUnescaped d line)[i]? = some (Text.stretch d line i) := by
  rw [splitUnescaped_eq_range hd, List.getElem?_map, List.getElem?_range (by omega),
    Option.map_some]

/-- The unescaped delimiters of a line, by counting. -/
theorem unescapedOffsets_eq_edges {d : Char} (hd : d ≠ '\\') (line : Text) :
    Text.unescapedOffsets d line = Text.edges d 0 (Text.splitUnescaped d line) := by
  have hoffsets := Text.unescapedOffsets_join hd (Text.stretches_splitUnescaped hd line)
  rwa [Text.join_splitUnescaped hd] at hoffsets

theorem tiles {d : Char} (hd : d ≠ '\\') (line : Text) : Tiles d line where
  join := by rw [← splitUnescaped_eq_range hd, Text.join_splitUnescaped hd]
  boundary := by
    intro p hp
    have hoccurs : Text.occursAt d p line = true := by
      have hmarks := (List.mem_filter.mp hp).2
      exact (Bool.and_eq_true_iff.mp hmarks).1
    obtain ⟨hsome, hhead⟩ := Bool.and_eq_true_iff.mp hoccurs
    obtain ⟨u, v, rfl, rfl⟩ := Text.exists_of_isBoundary hsome (of_decide_eq_true hhead)
    have hbehind := Text.isBoundary_byteLength (u ++ [d]) v
    rw [List.append_assoc, List.singleton_append, Text.byteLength_append, Text.byteLength_cons,
      Text.byteLength_nil, Nat.add_zero] at hbehind
    exact ⟨hsome, hbehind⟩

/-! ## Whole lines -/

theorem GroupAt.of_becomes {style : GroupStyle} (hd : isDelimiter style.delimiter = true)
    {line : Text} (hodd : (Text.splitUnescaped style.delimiter line).length % 2 = 1) {k : Nat}
    {x : Spot} {g : RawGroup} (hg : x.Becomes style g)
    (hx : (spotsFrom style.delimiter {} 0 (Text.splitUnescaped style.delimiter line))[k]?
      = some x) : GroupAt style line k g := by
  have hb := ne_backslash_of_isDelimiter hd
  obtain ⟨lead, rfl⟩ := hg
  obtain ⟨hstart, hcontent, hquote⟩ := getElem?_spotsFrom hodd hx
  have hlength := Text.length_unescapedOffsets hb line
  have hlt := (List.getElem?_eq_some_iff.mp hcontent).1
  have hstretch : x.content = Text.stretch style.delimiter line (2 * k + 1) := by
    rw [getElem?_splitUnescaped hb (by omega)] at hcontent
    exact (Option.some.inj hcontent).symm
  have hliterals : ((List.range (k + 1)).flatMap fun i =>
      (Text.splitUnescaped style.delimiter line).getD (2 * i) []) =
        (List.range (k + 1)).flatMap fun i => Text.stretch style.delimiter line (2 * i) := by
    refine List.flatMap_congr fun i hi => ?_
    have hi := List.mem_range.mp hi
    rw [List.getD_eq_getElem?_getD, getElem?_splitUnescaped hb (by omega), Option.getD_some]
  constructor
  · rw [unescapedOffsets_eq_edges hb, hstart]
    rfl
  · rw [← hliterals]
    exact hquote
  · simp [OpenGroup.close, hstretch]
  · simp [OpenGroup.close, hstretch]

/-- A line is read by its unescaped delimiters alone, whatever quotes it has. -/
theorem read_grammar {style : GroupStyle} (hd : isDelimiter style.delimiter = true) (line : Text) :
    Tiles style.delimiter line ∧
      (∀ n, (Text.unescapedOffsets style.delimiter line).length = 2 * n →
        ∃ raw, RawTemplate.read style line = .ok raw ∧ Parses style line n raw) ∧
      ((Text.unescapedOffsets style.delimiter line).length % 2 = 1 →
        ∃ f p, RawTemplate.read style line = .error f ∧ f.kind = .parse ∧ f.position = some p ∧
          (Text.unescapedOffsets style.delimiter line).getLast? = some p) := by
  have hb := ne_backslash_of_isDelimiter hd
  have hlength := Text.length_unescapedOffsets hb line
  refine ⟨tiles hb line, fun n hn => ?_, fun hodd => ?_⟩
  · have hodd : (Text.splitUnescaped style.delimiter line).length % 2 = 1 := by omega
    obtain ⟨raw, hread, hsegments, hgroups⟩ := read_of_odd hd hodd
    refine ⟨raw, hread, ?_, ?_, ?_⟩
    · rw [hsegments, splitUnescaped_eq_range hb, hn, segmentsFrom_eq]
      simp only [Nat.zero_add]
    · rw [← hgroups.length_eq, length_spotsFrom]
      omega
    · intro k g hg
      obtain ⟨hk, rfl⟩ := List.getElem?_eq_some_iff.mp hg
      have hk' : k < (spotsFrom style.delimiter {} 0
          (Text.splitUnescaped style.delimiter line)).length := by rwa [hgroups.length_eq]
      exact GroupAt.of_becomes hd hodd (hgroups.get hk' hk) (List.getElem?_eq_getElem hk')
  · have heven : (Text.splitUnescaped style.delimiter line).length % 2 = 0 := by omega
    obtain ⟨p, hread, hlast⟩ := read_of_even hd heven
    refine ⟨_, p, hread, rfl, rfl, ?_⟩
    rw [unescapedOffsets_eq_edges hb, hlast]

/-- A hidden group between apostrophes, and behind it one whose content and whose neighbour have
delimiters that are escaped. -/
def hiddenBehindQuote : Text := "é '@-:a,b@' \\@@c\\@d,'@".toList

theorem read_hiddenBehindQuote :
    isDelimiter '@' = true ∧ Text.unescapedOffsets '@' hiddenBehindQuote = [4, 10, 15, 22] ∧
      ∃ raw, RawTemplate.read {} hiddenBehindQuote = .ok raw ∧
        Parses {} hiddenBehindQuote 2 raw := by
  have hd : isDelimiter '@' = true := by decide
  have hoffsets : Text.unescapedOffsets '@' hiddenBehindQuote = [4, 10, 15, 22] := by decide
  obtain ⟨-, heven, -⟩ := @read_grammar {} hd hiddenBehindQuote
  exact ⟨hd, hoffsets, heven 2 (by rw [hoffsets]; rfl)⟩

end Fanout
