import Fanout.Proofs.Absorbing
import Fanout.Proofs.Writing
import Mathlib.Data.List.TakeWhile

/-!
# The hidden marker in a quoted word

A group is hidden when its body begins with the marker, behind any quotes. On the line the body is
written inside the quotes of its word, where each apostrophe has a backslash in front of it. The
terms are read after this is undone, but the marker is looked for before, and the search stops at
the first backslash. So an apostrophe in front of the marker keeps it from being found, and it stays
in the first term; a double quote does not, nor does an apostrophe anywhere else in the body.

* `Marked`, `unmarked`: the marker in a body, and the body without it.
* `Recognized`: the marker is found on the line as well.
* `stripMarker_escapeTerm`: what the search makes of a body as it is written.
* `read_groupWord`: the template of a line with such a word.
-/

namespace Fanout

/-! ## The marker -/

/-- The body begins with the hidden marker, behind any quotes. -/
def Marked (b : Text) : Prop := ['-', ':'] <+: b.dropWhile isQuote

instance (b : Text) : Decidable (Marked b) :=
  inferInstanceAs (Decidable (['-', ':'] <+: b.dropWhile isQuote))

/-- What is left of a marked body without its marker. -/
def unmarked (b : Text) : Text := b.takeWhile isQuote ++ (b.dropWhile isQuote).drop 2

/-- What the terms of a group are read from, when it is hidden by the marker or is not. -/
def contentOf (hidden : Bool) (b : Text) : Text := if hidden then unmarked b else b

/-- The body is marked, and no apostrophe stands in front of the marker. -/
def Recognized (b : Text) : Prop := Marked b ∧ '\'' ∉ b.takeWhile isQuote

instance (b : Text) : Decidable (Recognized b) :=
  inferInstanceAs (Decidable (Marked b ∧ '\'' ∉ b.takeWhile isQuote))

section Marker

variable {b : Text}

/-- The quotes and the marker that a marked body begins with. -/
theorem Marked.exists_rest (h : Marked b) : ∃ rest,
    b = b.takeWhile isQuote ++ '-' :: ':' :: rest ∧ unmarked b = b.takeWhile isQuote ++ rest := by
  obtain ⟨rest, hrest⟩ := h
  refine ⟨rest, ?_, ?_⟩
  · calc b = b.takeWhile isQuote ++ b.dropWhile isQuote := List.takeWhile_append_dropWhile.symm
      _ = b.takeWhile isQuote ++ '-' :: ':' :: rest := by rw [← hrest]; rfl
  · rw [unmarked, ← hrest]
    rfl

theorem mem_of_mem_contentOf {hidden : Bool} {c : Char} (h : c ∈ contentOf hidden b) : c ∈ b := by
  unfold contentOf at h
  split_ifs at h
  · rw [unmarked, List.mem_append] at h
    rcases h with hlead | hrest
    · exact (List.takeWhile_prefix isQuote).subset hlead
    · apply (List.dropWhile_suffix isQuote).subset
      exact List.mem_of_mem_drop hrest
  · exact h

/-- The marker is taken from behind quotes. -/
theorem stripMarker_append {lead : Text} (h : ∀ c ∈ lead, isQuote c = true) (rest : Text) :
    stripMarker ['-', ':'] (lead ++ '-' :: ':' :: rest) = (true, lead ++ rest) := by
  have htake : (lead ++ '-' :: ':' :: rest).takeWhile isQuote = lead := by
    rw [List.takeWhile_append_of_pos h]
    simp [isQuote]
  have hdrop : (lead ++ '-' :: ':' :: rest).dropWhile isQuote = '-' :: ':' :: rest := by
    rw [List.dropWhile_append_of_pos h]
    simp [isQuote]
  rw [stripMarker, hdrop, htake]
  rfl

end Marker

/-! ## The marker on a line -/

/-- Between single quotes a text begins as it did, up to its first apostrophe. -/
theorem prefix_quotedBody {m : Text} (hm : '\'' ∉ m) (t : Text) :
    m <+: ShellWord.quotedBody t ↔ m <+: t := by
  induction m generalizing t with
  | nil => simp
  | cons x m ih =>
    rw [List.mem_cons, not_or] at hm
    cases t with
    | nil => rfl
    | cons c t =>
      by_cases hc : c = '\''
      · rw [hc, ShellWord.quotedBody_apostrophe, List.cons_prefix_cons, List.cons_prefix_cons]
        exact iff_of_false (fun h => hm.1 h.1.symm) fun h => hm.1 h.1.symm
      · rw [ShellWord.quotedBody_cons_of_ne hc, List.cons_prefix_cons, List.cons_prefix_cons,
          ih hm.2]

/-- On the line, the quotes that a body begins with end at its first apostrophe, behind which there
is a backslash. -/
theorem marked_quotedBody (b : Text) : Marked (ShellWord.quotedBody b) ↔ Recognized b := by
  induction b with
  | nil => decide
  | cons c b ih =>
    by_cases ha : c = '\''
    · rw [ha]
      refine iff_of_false ?_ ?_
      · simp [Marked, isQuote]
      · simp [Recognized, isQuote]
    · rw [ShellWord.quotedBody_cons_of_ne ha]
      cases hq : isQuote c with
      | true =>
        have hlead : '\'' ∉ (c :: b).takeWhile isQuote ↔ '\'' ∉ b.takeWhile isQuote := by
          simp [hq, Ne.symm ha]
        rw [Recognized, hlead]
        simpa [Marked, Recognized, hq] using ih
      | false =>
        have hprefix := prefix_quotedBody (m := ['-', ':']) (by decide) (c :: b)
        rw [ShellWord.quotedBody_cons_of_ne ha] at hprefix
        simpa [Marked, Recognized, hq] using hprefix

/-- What the search for the marker makes of a body between single quotes. -/
theorem stripMarker_quotedBody (b : Text) :
    stripMarker ['-', ':'] (ShellWord.quotedBody b) =
      (decide (Recognized b), ShellWord.quotedBody (contentOf (decide (Recognized b)) b)) := by
  by_cases h : Recognized b
  · obtain ⟨rest, hb, hrest⟩ := h.1.exists_rest
    have hlead : ShellWord.quotedBody (b.takeWhile isQuote) = b.takeWhile isQuote :=
      ShellWord.quotedBody_of_not_mem h.2
    have hbody : ShellWord.quotedBody b =
        b.takeWhile isQuote ++ '-' :: ':' :: ShellWord.quotedBody rest := by
      conv_lhs => rw [hb]
      rw [ShellWord.quotedBody_append, hlead, ShellWord.quotedBody_cons_of_ne (by decide),
        ShellWord.quotedBody_cons_of_ne (by decide)]
    rw [decide_eq_true h, contentOf, if_pos rfl, hrest, ShellWord.quotedBody_append, hlead, hbody]
    exact stripMarker_append (fun c hc => List.mem_takeWhile_imp hc) _
  · rw [decide_eq_false h, contentOf, if_neg (by decide)]
    apply stripMarker_of_not_prefix
    intro hmarked
    exact h ((marked_quotedBody b).mp hmarked)

/-! ## The word -/

/-- The word of a group with this body. -/
def groupWord (b : Text) : Text := '@' :: (b ++ ['@'])

/-- A body that ends where its group does: no delimiter in it is unescaped, and it does not escape
the one behind it. -/
structure GroupBody (b : Text) : Prop where
  closed : Text.unescapedOffsets '@' b = []
  ends : Text.trailingBackslashes b % 2 = 0

instance (b : Text) : Decidable (GroupBody b) :=
  decidable_of_iff (Text.unescapedOffsets '@' b = [] ∧ Text.trailingBackslashes b % 2 = 0)
    ⟨fun h => ⟨h.1, h.2⟩, fun h => ⟨h.1, h.2⟩⟩

/-- The template of a line with the word alone, when its group is hidden by the marker or is not. -/
def groupTemplate (b : Text) (hidden : Bool) : RawTemplate :=
  let quote := contextOf (groupWord b)
  { segments := [.literal quote.mark, .slot 0, .literal quote.mark]
    groups := [
      { hidden
        terms := Text.splitUnescaped ',' (contentOf hidden b)
        externalPath := none
        quote
        start := quote.mark.byteLength }] }

section Word

variable {b : Text}

theorem groupTemplate_injective {hidden hidden' : Bool}
    (h : groupTemplate b hidden = groupTemplate b hidden') : hidden = hidden' := by
  have hgroups := congrArg (fun t => t.groups.map RawGroup.hidden) h
  simpa [groupTemplate] using hgroups

theorem mem_groupWord {c : Char} (h : c ∈ b) : c ∈ groupWord b :=
  List.mem_cons_of_mem _ (List.mem_append_left _ h)

/-- The line: the quotes of the word, if it has any, and the group between them. -/
theorem join_groupWord (b : Text) (q : QuoteContext) (hq : contextOf (groupWord b) = q) :
    ShellWord.join [groupWord b] = q.mark ++ '@' :: (escapeTerm q b ++ ['@'] ++ q.mark) := by
  have hat : escapeTerm q ['@'] = ['@'] := escapeTerm_of_not_quote (by simp [isQuote]) q
  have hword : groupWord b = ['@'] ++ (b ++ ['@']) := rfl
  rw [ShellWord.join, List.map_singleton, Text.join_singleton, quote_eq, hq, hword,
    escapeTerm_append, escapeTerm_append, hat]
  simp

/-- In a bare word the body is written as it is. -/
theorem escapeTerm_of_bare (hbare : ShellWord.isBare (groupWord b) = true) {t : Text}
    (h : ∀ c ∈ t, c ∈ b) : escapeTerm .plain t = t := by
  apply ShellWord.escapeTerm_plain_of_not_special
  intro c hc
  exact ShellWord.not_special_of_isBare hbare (mem_groupWord (h c hc))

/-- What is written of the body ends at the same delimiter. -/
theorem GroupBody.escaped (h : GroupBody b) :
    Text.Lacks '@' false (escapeTerm (contextOf (groupWord b)) b) ∧
      Text.dangles false (escapeTerm (contextOf (groupWord b)) b) = false := by
  have hlacks : Text.Lacks '@' false b := Text.lacks_of_unescapedOffsets (by decide) h.closed
  have hdangles : Text.dangles false b = false := (Text.even_trailingBackslashes_iff b).mp h.ends
  rcases contextOf_cases (groupWord b) with hsingle | ⟨hplain, hbare⟩
  · rw [hsingle]
    refine ⟨ShellWord.lacks_quotedBody (by decide) (by decide) hlacks, ?_⟩
    exact (ShellWord.dangles_quotedBody false b).trans hdangles
  · rw [hplain, escapeTerm_of_bare hbare fun c hc => hc]
    exact ⟨hlacks, hdangles⟩

/-- What the search for the marker makes of a body as it is written. -/
theorem stripMarker_escapeTerm (b : Text) :
    stripMarker ['-', ':'] (escapeTerm (contextOf (groupWord b)) b) =
      (decide (Recognized b),
        escapeTerm (contextOf (groupWord b)) (contentOf (decide (Recognized b)) b)) := by
  rcases contextOf_cases (groupWord b) with hsingle | ⟨hplain, hbare⟩
  · rw [hsingle]
    exact stripMarker_quotedBody b
  · have hquote : '\'' ∉ b := fun hmem =>
      ShellWord.not_special_of_isBare hbare (mem_groupWord hmem) (by decide)
    have hbody : ShellWord.quotedBody b = b := ShellWord.quotedBody_of_not_mem hquote
    have hcontent : ∀ c ∈ contentOf (decide (Recognized b)) b, c ∈ b := fun c hc =>
      mem_of_mem_contentOf hc
    have hsearch := stripMarker_quotedBody b
    rw [hbody, ShellWord.quotedBody_of_not_mem fun hmem => hquote (hcontent _ hmem)] at hsearch
    rw [hplain, escapeTerm_of_bare hbare fun c hc => hc, escapeTerm_of_bare hbare hcontent,
      hsearch]

/-- The group that the reader makes of the body. -/
theorem close_groupWord (b : Text) (n : Nat) :
    OpenGroup.close {}
        ⟨n, contextOf (groupWord b), [], (escapeTerm (contextOf (groupWord b)) b).reverse⟩ =
      { hidden := decide (Recognized b)
        terms := Text.splitUnescaped ',' (contentOf (decide (Recognized b)) b)
        externalPath := none
        quote := contextOf (groupWord b)
        start := n } := by
  have hcontent : unquoteBody (contextOf (groupWord b))
      (escapeTerm (contextOf (groupWord b)) (contentOf (decide (Recognized b)) b)) =
        contentOf (decide (Recognized b)) b := by
    apply unquoteBody_escapeTerm
    intro c hc
    exact mem_groupWord (mem_of_mem_contentOf hc)
  simp only [OpenGroup.close, List.reverse_reverse, stripMarker_escapeTerm, hcontent]
  simp

end Word

/-! ## The line -/

/-- The reader behind the quotes that a line begins with. -/
def Reader.behindMark (q : QuoteContext) : Reader where
  scanner := ⟨q, false⟩
  offset := q.mark.byteLength
  literal := q.mark

theorem Reader.foldl_mark (q : QuoteContext) :
    q.mark.foldl (Reader.step {}) {} = Reader.behindMark q := by
  cases q <;> decide

/-- A line with one group in quotes, or without any, is read as that group. -/
theorem read_between_marks (q : QuoteContext) {c : Text} (hc : Text.Lacks '@' false c)
    (hcs : Text.dangles false c = false) :
    RawTemplate.read {} (q.mark ++ '@' :: (c ++ ['@'] ++ q.mark)) =
      .ok { segments := [.literal q.mark, .slot 0, .literal q.mark]
            groups := [OpenGroup.close {} ⟨q.mark.byteLength, q, [], c.reverse⟩] } := by
  have hd : isDelimiter ({} : GroupStyle).delimiter = true := by decide
  have hopen := Reader.step_lead (r := Reader.behindMark q) hd rfl rfl
  have hlead : leadOf (Reader.behindMark q).scanner.context (Reader.behindMark q).quoted.reverse
      (Reader.behindMark q).run.reverse = [] := by
    cases q <;> rfl
  have hmark : Text.Lacks '@' false q.mark :=
    Text.lacks_of_not_mem (by cases q <;> decide) false
  have hliteral : q.mark.reverse = q.mark := by cases q <;> rfl
  rw [hlead] at hopen
  rw [RawTemplate.read, List.foldl_append, Reader.foldl_mark, List.foldl_cons, hopen,
    List.foldl_append, Reader.foldl_close hd rfl rfl hc hcs, Reader.finish_literal hd rfl hmark]
  simp [Reader.behindMark, hliteral]

/-- A line with the word of a group alone has that group for its only one. The group is hidden, and
its terms are read without the marker, when the marker is recognized on the line. So the group is
the one that its body describes, in quotes as without, unless the body is marked behind an
apostrophe. -/
theorem read_groupWord {b : Text} (h : GroupBody b) :
    RawTemplate.read {} (ShellWord.join [groupWord b]) =
        .ok (groupTemplate b (decide (Recognized b))) ∧
      (RawTemplate.read {} (ShellWord.join [groupWord b]) =
          .ok (groupTemplate b (decide (Marked b))) ↔
        ¬(Marked b ∧ '\'' ∈ b.takeWhile isQuote)) := by
  have hread : RawTemplate.read {} (ShellWord.join [groupWord b]) =
      .ok (groupTemplate b (decide (Recognized b))) := by
    obtain ⟨hlacks, hdangles⟩ := h.escaped
    rw [join_groupWord b _ rfl, read_between_marks _ hlacks hdangles, close_groupWord]
    rfl
  refine ⟨hread, ?_⟩
  rw [hread]
  constructor
  · rintro hsame ⟨hmarked, hlead⟩
    have hhidden : decide (Recognized b) = decide (Marked b) :=
      groupTemplate_injective (Except.ok.inj hsame)
    have hrecognized : Recognized b := by simpa [hmarked] using hhidden
    exact hrecognized.2 hlead
  · intro hnot
    have hiff : Recognized b ↔ Marked b :=
      and_iff_left_of_imp fun hmarked hlead => hnot ⟨hmarked, hlead⟩
    simp [hiff]

/-- A marker behind a double quote is recognized, and the apostrophe of the second term is not in
front of it. -/
theorem read_groupWord_behind_quote : GroupBody "\"-:a,'b".toList ∧
    ShellWord.join [groupWord "\"-:a,'b".toList] = "'@\"-:a,'\\''b@'".toList ∧
    RawTemplate.read {} (ShellWord.join [groupWord "\"-:a,'b".toList]) =
      .ok { segments := [.literal ['\''], .slot 0, .literal ['\'']]
            groups := [⟨true, ["\"a".toList, "'b".toList], none, .single, 1⟩] } := by
  have hbody : GroupBody "\"-:a,'b".toList := by decide
  obtain ⟨hread, -⟩ := read_groupWord hbody
  refine ⟨hbody, by decide, ?_⟩
  rw [hread]
  decide

/-- Behind an apostrophe the same marker is not, and stays in the first term. -/
theorem read_groupWord_behind_apostrophe : GroupBody "'-:a,b".toList ∧ Marked "'-:a,b".toList ∧
    RawTemplate.read {} (ShellWord.join [groupWord "'-:a,b".toList]) =
      .ok { segments := [.literal ['\''], .slot 0, .literal ['\'']]
            groups := [⟨false, ["'-:a".toList, "b".toList], none, .single, 1⟩] } ∧
    RawTemplate.read {} (ShellWord.join [groupWord "'-:a,b".toList]) ≠
      .ok (groupTemplate "'-:a,b".toList (decide (Marked "'-:a,b".toList))) := by
  have hread : RawTemplate.read {} (ShellWord.join [groupWord "'-:a,b".toList]) =
      .ok { segments := [.literal ['\''], .slot 0, .literal ['\'']]
            groups := [⟨false, ["'-:a".toList, "b".toList], none, .single, 1⟩] } := by cbv
  refine ⟨by decide, by decide, hread, ?_⟩
  rw [hread]
  decide

end Fanout
