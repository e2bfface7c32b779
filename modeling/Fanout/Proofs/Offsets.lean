import Fanout.Proofs.Stretch
import Fanout.Text.Offset

/-!
# Where the unescaped characters stand

The byte offsets of the unescaped occurrences of a character, and the text between two offsets.

* `Text.unescapedOffsets`: the offsets, by the rule of `isEscaped` and nothing else.
* `Text.stretch`: the text between two neighbours of them.
* `unescapedOffsets_join`, `stretch_join`: for a text given by its stretches, the offsets are found
  by counting (`edges`), and the text between them is the stretch again.
-/

namespace Fanout

namespace Text

/-- The text from one byte offset to another. -/
def slice (a b : Nat) (t : Text) : Text := beyond a (upTo b t)

/-- The character `d` stands at the byte offset. -/
def occursAt (d : Char) (n : Nat) (t : Text) : Bool :=
  (before? n t).isSome && (beyond n t).head? = some d

/-- The byte offsets of the unescaped `d`, in order. -/
def unescapedOffsets (d : Char) (t : Text) : List Nat :=
  (List.range t.byteLength).filter fun n => occursAt d n t && !t.isEscaped n

/-- Where stretch number `i` begins, for the offsets of the characters that part stretches. -/
def stretchStart (d : Char) (offsets : List Nat) (i : Nat) : Nat :=
  if i = 0 then 0 else offsets.getD (i - 1) 0 + d.utf8Size

/-- Where stretch number `i` of the text ends. -/
def stretchEnd (t : Text) (offsets : List Nat) (i : Nat) : Nat := offsets.getD i t.byteLength

/-- The text between the unescaped `d` number `i - 1` and number `i`. -/
def stretch (d : Char) (t : Text) (i : Nat) : Text :=
  let offsets := unescapedOffsets d t
  slice (stretchStart d offsets i) (stretchEnd t offsets i) t

/-! ## Offsets behind an opening -/

theorem upTo_zero (t : Text) : upTo 0 t = [] := by
  cases t with
  | nil => rfl
  | cons c t => exact if_neg (by have := c.utf8Size_pos; omega)

theorem beyond_zero (t : Text) : beyond 0 t = t := by
  cases t with
  | nil => rfl
  | cons c t => exact if_neg (by have := c.utf8Size_pos; omega)

theorem upTo_append (u t : Text) (n : Nat) : upTo (byteLength u + n) (u ++ t) = u ++ upTo n t := by
  induction u with
  | nil => rw [byteLength_nil, Nat.zero_add, List.nil_append, List.nil_append]
  | cons c u ih =>
    have hle : c.utf8Size ≤ byteLength (c :: u) + n := by rw [byteLength_cons]; omega
    have hrest : byteLength (c :: u) + n - c.utf8Size = byteLength u + n := by
      rw [byteLength_cons]; omega
    rw [List.cons_append, upTo, if_pos hle, hrest, ih, List.cons_append]

theorem beyond_append (u t : Text) (n : Nat) : beyond (byteLength u + n) (u ++ t) = beyond n t := by
  induction u with
  | nil => rw [byteLength_nil, Nat.zero_add, List.nil_append]
  | cons c u ih =>
    have hle : c.utf8Size ≤ byteLength (c :: u) + n := by rw [byteLength_cons]; omega
    have hrest : byteLength (c :: u) + n - c.utf8Size = byteLength u + n := by
      rw [byteLength_cons]; omega
    rw [List.cons_append, beyond, if_pos hle, hrest, ih]

theorem upTo_byteLength (u t : Text) : upTo (byteLength u) (u ++ t) = u := by
  simpa [upTo_zero] using upTo_append u t 0

theorem beyond_byteLength (u t : Text) : beyond (byteLength u) (u ++ t) = t := by
  simpa [beyond_zero] using beyond_append u t 0

theorem before?_byteLength (u t : Text) : before? (byteLength u) (u ++ t) = some u := by
  rw [before?, upTo_byteLength, if_pos rfl]

/-- No opening ends inside a character. -/
theorem before?_inside {c : Char} {n : Nat} (h0 : 0 < n) (hn : n < c.utf8Size) (u t : Text) :
    before? (byteLength u + n) (u ++ c :: t) = none := by
  have hin : upTo n (c :: t) = [] := if_neg (by omega)
  rw [before?, upTo_append, hin, List.append_nil, if_neg (by omega)]

theorem isBoundary_byteLength (u t : Text) : isBoundary (byteLength u) (u ++ t) = true := by
  rw [isBoundary, before?_byteLength, Option.isSome_some]

theorem isBoundary_iff {n : Nat} {t : Text} :
    isBoundary n t = true ↔ byteLength (upTo n t) = n := by
  unfold isBoundary before?
  split_ifs with h <;> simp [h]

/-- A boundary in front of a character parts the text there. -/
theorem exists_of_isBoundary {n : Nat} {t : Text} {c : Char} (hn : isBoundary n t = true)
    (hc : (beyond n t).head? = some c) : ∃ u v, t = u ++ c :: v ∧ byteLength u = n := by
  obtain ⟨v, hv⟩ := List.head?_eq_some_iff.mp hc
  refine ⟨upTo n t, v, ?_, isBoundary_iff.mp hn⟩
  rw [← hv, upTo_append_beyond]

/-- Behind an opening, the rule for escaped characters looks at the opening alone. -/
theorem isEscaped_byteLength (u t : Text) :
    isEscaped (u ++ t) (byteLength u) = dangles false u := by
  rw [isEscaped, before?_byteLength, dangles_eq_odd]

theorem slice_append (u t v : Text) :
    slice (byteLength u) (byteLength u + byteLength t) (u ++ (t ++ v)) = t := by
  rw [slice, upTo_append, upTo_byteLength, beyond_byteLength]

/-! ## Counting offsets -/

/-- The offset stands at an unescaped `d`. -/
def marks (d : Char) (t : Text) (n : Nat) : Bool := occursAt d n t && !t.isEscaped n

/-- Of the offsets of one character, at most its first stands at an unescaped `d`. -/
theorem filter_marks_char (d c : Char) (u t : Text) :
    (List.range' (byteLength u) c.utf8Size).filter (marks d (u ++ c :: t)) =
      if c = d ∧ dangles false u = false then [byteLength u] else [] := by
  obtain ⟨k, hk⟩ : ∃ k, c.utf8Size = k + 1 := ⟨c.utf8Size - 1, by have := c.utf8Size_pos; omega⟩
  have hfirst : marks d (u ++ c :: t) (byteLength u) =
      decide (c = d ∧ dangles false u = false) := by
    rw [marks, occursAt, before?_byteLength, beyond_byteLength, isEscaped_byteLength]
    cases dangles false u <;> simp
  have hrest : (List.range' (byteLength u + 1) k).filter (marks d (u ++ c :: t)) = [] := by
    rw [List.filter_eq_nil_iff]
    intro n hn
    obtain ⟨hlo, hhi⟩ := List.mem_range'_1.mp hn
    obtain ⟨m, rfl⟩ : ∃ m, n = byteLength u + m := ⟨n - byteLength u, by omega⟩
    rw [marks, occursAt, before?_inside (by omega) (by omega)]
    simp
  rw [hk, List.range'_succ, List.filter_cons, hrest, hfirst]
  simp

/-- A stretch has no offset of an unescaped `d`. -/
theorem filter_marks_stretch {d : Char} {t : Text} (u v : Text) (h : Lacks d (dangles false u) t) :
    (List.range' (byteLength u) (byteLength t)).filter (marks d (u ++ (t ++ v))) = [] := by
  induction t generalizing u with
  | nil => rfl
  | cons c t ih =>
    obtain ⟨hc, ht⟩ := h
    have hnext := ih (u ++ [c]) (by simpa using ht)
    have hsplit : u ++ (c :: t ++ v) = u ++ [c] ++ (t ++ v) := by simp
    have hlen : byteLength (u ++ [c]) = byteLength u + c.utf8Size := by simp
    rw [← hsplit, hlen] at hnext
    have hchar := filter_marks_char d c u (t ++ v)
    have hnot : ¬(c = d ∧ dangles false u = false) := fun ⟨he, hf⟩ => by
      rw [hc he] at hf
      exact Bool.noConfusion hf
    rw [if_neg hnot] at hchar
    rw [byteLength_cons, ← List.range'_append_1, List.filter_append, List.cons_append, hchar,
      List.nil_append]
    exact hnext

/-- The offsets at the ends of stretches that begin at offset `n`, but for the last stretch. -/
def edges (d : Char) : Nat → List Text → List Nat
  | n, t :: u :: ts =>
    (n + byteLength t) :: edges d (n + byteLength t + d.utf8Size) (u :: ts)
  | _, _ => []

theorem edges_singleton (d : Char) (n : Nat) (t : Text) : edges d n [t] = [] := rfl

theorem length_edges (d : Char) (n : Nat) (ts : List Text) :
    (edges d n ts).length = ts.length - 1 := by
  induction ts generalizing n with
  | nil => rfl
  | cons t ts ih =>
    cases ts with
    | nil => rfl
    | cons u us => simp [edges, ih]

theorem edges_cons_cons (d : Char) (n : Nat) (t u : Text) (ts : List Text) :
    edges d n (t :: u :: ts) =
      (n + byteLength t) :: edges d (n + byteLength t + d.utf8Size) (u :: ts) := rfl

theorem byteLength_behind (u t : Text) (d : Char) :
    byteLength (u ++ t ++ [d]) = byteLength u + byteLength t + d.utf8Size := by
  rw [byteLength_append, byteLength_append, byteLength_cons, byteLength_nil, Nat.add_zero]

theorem filter_marks_join {d : Char} (hd : d ≠ '\\') {ts : List Text} (u : Text)
    (h : Stretches d (dangles false u) ts) :
    (List.range' (byteLength u) (byteLength (join [d] ts))).filter (marks d (u ++ join [d] ts)) =
      edges d (byteLength u) ts := by
  induction ts generalizing u with
  | nil => exact absurd h id
  | cons t ts ih =>
    cases ts with
    | nil =>
      have hnone := filter_marks_stretch u [] (stretches_singleton.mp h)
      simpa [edges_singleton] using hnone
    | cons v vs =>
      obtain ⟨ht, hdangles, hvs⟩ := h
      have hopen : dangles false (u ++ t) = false := by rw [dangles_append, hdangles]
      have hbehind : dangles false (u ++ t ++ [d]) = false := by
        rw [dangles_append, hopen, dangles_cons, escapesNext_of_ne hd, dangles_nil]
      have hstretch := filter_marks_stretch u ([d] ++ join [d] (v :: vs)) ht
      have hmark := filter_marks_char d d (u ++ t) (join [d] (v :: vs))
      have hrest := ih (u ++ t ++ [d]) (by rwa [hbehind])
      rw [if_pos ⟨rfl, hopen⟩] at hmark
      rw [byteLength_behind] at hrest
      simp only [List.append_assoc, byteLength_append,
        List.singleton_append] at hstretch hmark hrest
      rw [join_cons_cons, edges_cons_cons, ← hrest, byteLength_append, ← List.range'_append_1,
        List.filter_append, List.singleton_append, hstretch, List.nil_append, byteLength_cons,
        ← List.range'_append_1, List.filter_append, hmark, List.singleton_append]

/-- The offsets of the unescaped `d` are those at which stretches end. -/
theorem unescapedOffsets_join {d : Char} (hd : d ≠ '\\') {ts : List Text}
    (h : Stretches d false ts) : unescapedOffsets d (join [d] ts) = edges d 0 ts := by
  have hall := filter_marks_join hd [] h
  rwa [byteLength_nil, ← List.range_eq_range'] at hall

theorem length_unescapedOffsets {d : Char} (hd : d ≠ '\\') (t : Text) :
    (unescapedOffsets d t).length + 1 = (splitUnescaped d t).length := by
  have hstretches := stretches_splitUnescaped hd t
  have hoffsets := unescapedOffsets_join hd hstretches
  rw [join_splitUnescaped hd] at hoffsets
  have hpos : 0 < (splitUnescaped d t).length :=
    List.length_pos_iff.mpr (splitFrom_ne_nil d .start t)
  rw [hoffsets, length_edges]
  omega

/-- A text without an offset of an unescaped `d` is one stretch. -/
theorem lacks_of_unescapedOffsets {d : Char} (hd : d ≠ '\\') {t : Text}
    (h : unescapedOffsets d t = []) : Lacks d false t := by
  have hlength := length_unescapedOffsets hd t
  have hstretches := stretches_splitUnescaped hd t
  have hjoin := join_splitUnescaped hd t
  rw [h] at hlength
  obtain ⟨u, hu⟩ := List.length_eq_one_iff.mp hlength.symm
  rw [hu] at hstretches hjoin
  obtain rfl : u = t := by rwa [join_singleton] at hjoin
  exact hstretches

/-! ## The text between offsets -/

/-- Behind an opening that ends at an unescaped `d`, or at the start, the stretches are found
between the offsets at which they end. -/
theorem slice_edges {d : Char} {ts : List Text} (u : Text) {i : Nat} {t : Text}
    (hi : ts[i]? = some t) :
    slice (if i = 0 then byteLength u else (edges d (byteLength u) ts).getD (i - 1) 0 + d.utf8Size)
      ((edges d (byteLength u) ts).getD i (byteLength (u ++ join [d] ts)))
      (u ++ join [d] ts) = t := by
  induction ts generalizing u i with
  | nil => exact absurd hi (by simp)
  | cons v vs ih =>
    cases vs with
    | nil =>
      obtain ⟨rfl, rfl⟩ : i = 0 ∧ v = t := by
        cases i <;> simp_all
      have hwhole := slice_append u v []
      simpa [edges_singleton] using hwhole
    | cons w ws =>
      cases i with
      | zero =>
        obtain rfl : v = t := by simpa using hi
        have hfirst := slice_append u v ([d] ++ join [d] (w :: ws))
        simpa [edges_cons_cons] using hfirst
      | succ i =>
        have hnext := ih (u ++ v ++ [d]) (i := i) (by simpa using hi)
        have htext : u ++ v ++ [d] ++ join [d] (w :: ws) = u ++ join [d] (v :: w :: ws) := by simp
        rw [byteLength_behind, htext] at hnext
        cases i with
        | zero => simpa [edges_cons_cons] using hnext
        | succ i => simpa [edges_cons_cons] using hnext

/-- The stretches of a text are the texts between its unescaped `d`. -/
theorem stretch_join {d : Char} (hd : d ≠ '\\') {ts : List Text} (h : Stretches d false ts)
    {i : Nat} {t : Text} (hi : ts[i]? = some t) : stretch d (join [d] ts) i = t := by
  have hslice := slice_edges (d := d) [] hi
  rw [byteLength_nil, List.nil_append] at hslice
  rw [stretch, unescapedOffsets_join hd h]
  exact hslice

end Text

end Fanout
