import Fanout.Path.Relative
import Fanout.Proofs.Stretch
import Mathlib.Data.List.Basic

/-!
# The pieces of a path

What a path leads to depends on its start and on the pieces that count. So two paths lead to the
same node when these agree, however many slashes and lone dots they are spelled with, and a base
with the relative path behind it agrees with the path that the relative one was taken from.

* `kept`: the pieces that count; `EndsVoid`: the last piece does not.
* `sameWay_of_components`: paths with the same steps agree in their start and in these pieces.
* `kept_relative`: a relative path has the pieces that its base leaves.
* `closed`: a directory with a slash behind it; `components_closed_append`: with the relative path
  behind that, it has the steps of the whole path. `components_append_iff`: without the slash it
  does not.
-/

namespace Fanout

namespace Text

theorem splitOn_append_sep (sep : Char) (s t : Text) :
    splitOn sep (s ++ sep :: t) = splitOn sep s ++ splitOn sep t := by
  induction s with
  | nil => simp [splitOn]
  | cons c s ih =>
    rw [List.cons_append, splitOn, splitOn, ih]
    split_ifs with hc
    · rfl
    · cases hs : splitOn sep s with
      | nil => exact absurd hs (splitOn_ne_nil sep s)
      | cons p ps => rfl

/-- A text without the separator joins the first piece of what follows. -/
theorem splitOn_append_of_not_mem {sep : Char} {u : Text} (h : sep ∉ u) (t : Text) :
    splitOn sep (u ++ t) = (splitOn sep t).modifyHead (u ++ ·) := by
  induction u with
  | nil =>
    cases hs : splitOn sep t with
    | nil => exact absurd hs (splitOn_ne_nil sep t)
    | cons p ps => simpa using hs
  | cons c u ih =>
    rw [List.mem_cons, not_or] at h
    rw [List.cons_append, splitOn, if_neg (Ne.symm h.1), ih h.2]
    cases hs : splitOn sep t with
    | nil => exact absurd hs (splitOn_ne_nil sep t)
    | cons p ps => rfl

/-- No piece has the separator in it. -/
theorem not_mem_of_mem_splitOn {sep : Char} {t p : Text} (h : p ∈ splitOn sep t) : sep ∉ p := by
  induction t generalizing p with
  | nil =>
    obtain rfl : p = [] := by simpa [splitOn] using h
    exact List.not_mem_nil
  | cons c t ih =>
    rw [splitOn] at h
    split_ifs at h with hc
    · rcases List.mem_cons.mp h with rfl | h
      · exact List.not_mem_nil
      · exact ih h
    · cases hs : splitOn sep t with
      | nil => exact absurd hs (splitOn_ne_nil sep t)
      | cons q qs =>
        rw [hs] at h ih
        rcases List.mem_cons.mp h with rfl | h
        · rw [List.mem_cons, not_or]
          exact ⟨fun h => hc h.symm, ih List.mem_cons_self⟩
        · exact ih (List.mem_cons_of_mem _ h)

theorem splitOn_of_not_mem {sep : Char} {t : Text} (h : sep ∉ t) : splitOn sep t = [t] := by
  induction t with
  | nil => rfl
  | cons c t ih =>
    rw [List.mem_cons, not_or] at h
    rw [splitOn, if_neg (Ne.symm h.1), ih h.2]

/-- Pieces put together are the pieces of what they make. -/
theorem splitOn_join {sep : Char} {ps : List Text} (hne : ps ≠ []) (h : ∀ p ∈ ps, sep ∉ p) :
    splitOn sep (join [sep] ps) = ps := by
  induction ps with
  | nil => exact absurd rfl hne
  | cons p ps ih =>
    obtain ⟨hp, hps⟩ := List.forall_mem_cons.mp h
    cases ps with
    | nil => rw [join_singleton, splitOn_of_not_mem hp]
    | cons q qs =>
      rw [join_cons_cons, List.singleton_append, splitOn_append_sep, splitOn_of_not_mem hp,
        ih (List.cons_ne_nil q qs) hps, List.singleton_append]

/-- A character other than the separator stands in one of the pieces. -/
theorem exists_mem_splitOn {sep c : Char} {t : Text} (hc : c ∈ t) (hne : c ≠ sep) :
    ∃ p ∈ splitOn sep t, c ∈ p := by
  induction t with
  | nil => exact absurd hc List.not_mem_nil
  | cons d t ih =>
    rw [splitOn]
    split_ifs with hd
    · have hmem : c ∈ t := (List.mem_cons.mp hc).resolve_left (by rw [hd]; exact hne)
      obtain ⟨p, hp, hcp⟩ := ih hmem
      exact ⟨p, List.mem_cons_of_mem _ hp, hcp⟩
    · cases hs : splitOn sep t with
      | nil => exact absurd hs (splitOn_ne_nil sep t)
      | cons q qs =>
        rcases List.mem_cons.mp hc with rfl | hc
        · exact ⟨c :: q, List.mem_cons_self, List.mem_cons_self⟩
        · obtain ⟨p, hp, hcp⟩ := ih hc
          rw [hs] at hp
          rcases List.mem_cons.mp hp with rfl | hp
          · exact ⟨d :: p, List.mem_cons_self, List.mem_cons_of_mem _ hcp⟩
          · exact ⟨p, List.mem_cons_of_mem _ hp, hcp⟩

/-- A piece has no other characters than the text. -/
theorem mem_of_mem_splitOn {sep c : Char} {t p : Text} (hp : p ∈ splitOn sep t) (hc : c ∈ p) :
    c ∈ t := by
  induction t generalizing p with
  | nil =>
    obtain rfl : p = [] := by simpa [splitOn] using hp
    exact hc
  | cons d t ih =>
    rw [splitOn] at hp
    split_ifs at hp with hd
    · rcases List.mem_cons.mp hp with rfl | hp
      · exact absurd hc List.not_mem_nil
      · exact List.mem_cons_of_mem _ (ih hp hc)
    · cases hs : splitOn sep t with
      | nil => exact absurd hs (splitOn_ne_nil sep t)
      | cons q qs =>
        rw [hs] at hp ih
        rcases List.mem_cons.mp hp with rfl | hp
        · rcases List.mem_cons.mp hc with rfl | hc
          · exact List.mem_cons_self
          · exact List.mem_cons_of_mem _ (ih List.mem_cons_self hc)
        · exact List.mem_cons_of_mem _ (ih (List.mem_cons_of_mem _ hp) hc)

end Text

namespace Path

/-! ## Pieces that count -/

/-- The pieces that count. -/
def kept (ps : List Text) : List Text := ps.filter (!isVoid ·)

/-- The last piece counts for nothing. -/
def EndsVoid (ps : List Text) : Prop := ∃ p, ps.getLast? = some p ∧ isVoid p = true

theorem kept_append (ps qs : List Text) : kept (ps ++ qs) = kept ps ++ kept qs :=
  List.filter_append ps qs

theorem kept_cons_of_void {p : Text} (h : isVoid p = true) (ps : List Text) :
    kept (p :: ps) = kept ps := by simp [kept, h]

theorem kept_cons_of_not_void {p : Text} (h : isVoid p = false) (ps : List Text) :
    kept (p :: ps) = p :: kept ps := by simp [kept, h]

theorem kept_pieces_append (p q : Text) :
    kept (pieces (p ++ '/' :: q)) = kept (pieces p) ++ kept (pieces q) := by
  rw [pieces, Text.splitOn_append_sep, kept_append]
  rfl

theorem body_eq (p : Text) : body p = (kept (pieces p)).map step := rfl

theorem step_injective {p q : Text} (h : step p = step q) : p = q := by
  unfold step at h
  split_ifs at h with hp hq hq
  · rw [hp, hq]
  · exact Component.name.inj h

/-! ## Steps -/

theorem isAbsolute_iff {p : Text} : isAbsolute p = true ↔ ∃ t, p = '/' :: t := by
  cases p with
  | nil => simp [isAbsolute]
  | cons c t => simp [isAbsolute]

/-- How a path opens is seen from its first character and its first piece. -/
theorem opening_congr {p q : Text} (hhead : p.head? = q.head?)
    (hpieces : (pieces p).head? = (pieces q).head?) : opening p = opening q := by
  have habsolute : isAbsolute p = isAbsolute q := by
    cases p <;> cases q <;> simp_all [isAbsolute]
  rw [opening, opening, habsolute, hpieces]

/-- A path opens with at most one step, a root or a dot. -/
theorem opening_cases (p : Text) :
    opening p = [] ∨ ∃ c, opening p = [c] ∧ (c = .root ∨ c = .current) := by
  unfold opening
  split_ifs
  · exact .inr ⟨_, rfl, .inl rfl⟩
  · exact .inr ⟨_, rfl, .inr rfl⟩
  · exact .inl rfl

theorem opening_eq_root_iff {p : Text} : opening p = [.root] ↔ isAbsolute p = true := by
  unfold opening
  split_ifs with habsolute <;> simp [habsolute]

/-- Behind the opening there is neither a root nor a dot. -/
theorem not_opening_of_mem_body {p : Text} {c : Component} (h : c ∈ body p) :
    ¬(c = .root ∨ c = .current) := by
  obtain ⟨piece, -, rfl⟩ := List.mem_map.mp h
  unfold step
  split_ifs <;> simp

/-- A path that leads another opens as it does. -/
theorem opening_of_leads {b p : Text} (hne : components b ≠ [])
    (h : components b <+: components p) : opening b = opening p ∧ body b <+: body p := by
  unfold components at h hne
  rcases opening_cases b with hb | ⟨x, hb, hx⟩ <;> rcases opening_cases p with hp | ⟨y, hp, hy⟩ <;>
    rw [hb] at h hne ⊢ <;> rw [hp] at h ⊢
  · exact ⟨rfl, h⟩
  · cases hbody : body b with
    | nil => exact absurd hbody hne
    | cons c cs =>
      rw [hbody] at h
      obtain ⟨rfl, -⟩ := List.cons_prefix_cons.mp h
      exact absurd hy (not_opening_of_mem_body (p := b) (by rw [hbody]; exact List.mem_cons_self))
  · exact absurd hx (not_opening_of_mem_body (h.subset List.mem_cons_self))
  · obtain ⟨rfl, hbody⟩ := List.cons_prefix_cons.mp h
    exact ⟨rfl, hbody⟩

/-- Paths with the same steps start alike, and the same pieces of them count. -/
theorem sameWay_of_components {p q : Text} (h : components p = components q) :
    isAbsolute p = isAbsolute q ∧ kept (pieces p) = kept (pieces q) := by
  have hopening : opening p = opening q := by
    by_cases hne : components p = []
    · have hq := h.symm.trans hne
      rw [(List.append_eq_nil_iff.mp hne).1, (List.append_eq_nil_iff.mp hq).1]
    · exact (opening_of_leads hne (h ▸ List.prefix_rfl)).1
  have hbody : body p = body q := by
    unfold components at h
    rw [hopening] at h
    exact List.append_cancel_left h
  refine ⟨Bool.eq_iff_iff.mpr ?_, List.map_injective_iff.mpr (fun _ _ => step_injective) hbody⟩
  rw [← opening_eq_root_iff, ← opening_eq_root_iff, hopening]

/-! ## Relative paths -/

theorem kept_dropSteps (n : Nat) (ps : List Text) : kept (dropSteps n ps) = (kept ps).drop n := by
  fun_induction dropSteps n ps with
  | case1 ps => rfl
  | case2 n => simp [kept]
  | case3 n p ps hp ih => rw [ih, kept_cons_of_void hp]
  | case4 n p ps hp ih => rw [ih, kept_cons_of_not_void (by simpa using hp), List.drop_succ_cons]

theorem kept_dropWhile (ps : List Text) : kept (ps.dropWhile isVoid) = kept ps := by
  induction ps with
  | nil => rfl
  | cons p ps ih =>
    rw [List.dropWhile_cons]
    split_ifs with hp
    · rw [ih, kept_cons_of_void hp]
    · rfl

theorem kept_trimPieces (ps : List Text) : kept (trimPieces ps) = kept ps := by
  rw [trimPieces, kept, List.filter_reverse, ← kept, kept_dropWhile, kept, List.filter_reverse,
    List.reverse_reverse, kept]

theorem not_endsVoid_trimPieces (ps : List Text) : ¬EndsVoid (trimPieces ps) := by
  rintro ⟨p, hp, hvoid⟩
  rw [trimPieces, List.getLast?_reverse] at hp
  have hhead := List.head?_dropWhile_not isVoid ps.reverse
  rw [hp] at hhead
  exact absurd hvoid (by simpa using hhead)

/-- The pieces of a row of pieces put together. The empty row makes one piece, which is empty. -/
theorem pieces_unite {ps : List Text} (hne : ps ≠ []) (h : ∀ p ∈ ps, '/' ∉ p) :
    pieces (unite ps) = ps := Text.splitOn_join hne h

theorem dropSteps_suffix (n : Nat) (ps : List Text) : dropSteps n ps <:+ ps := by
  fun_induction dropSteps n ps with
  | case1 ps => exact List.suffix_rfl
  | case2 n => exact List.suffix_rfl
  | case3 n p ps hp ih => exact ih.trans (List.suffix_cons p ps)
  | case4 n p ps hp ih => exact ih.trans (List.suffix_cons p ps)

theorem trimPieces_leads (ps : List Text) : trimPieces ps <+: ps := by
  rw [trimPieces, ← List.reverse_suffix, List.reverse_reverse]
  exact List.dropWhile_suffix isVoid

/-- What an opening takes from a path counts for nothing behind it. -/
theorem kept_tail_of_opening {p : Text} (h : opening p ≠ []) :
    kept (pieces p).tail = kept (pieces p) := by
  have hvoid : ∃ x xs, pieces p = x :: xs ∧ isVoid x = true := by
    unfold opening at h
    split_ifs at h with habsolute hdot
    · obtain ⟨t, rfl⟩ := isAbsolute_iff.mp habsolute
      exact ⟨[], pieces t, by simp [pieces, Text.splitOn], rfl⟩
    · obtain ⟨xs, hxs⟩ := List.head?_eq_some_iff.mp hdot
      exact ⟨['.'], xs, hxs, rfl⟩
    · exact absurd rfl h
  obtain ⟨x, xs, hp, hx⟩ := hvoid
  rw [hp, List.tail_cons, kept_cons_of_void hx]

/-- What is behind the opening and the steps of the base, without void pieces at its ends. -/
theorem exists_of_relative {base p r : Text} (hne : components base ≠ [])
    (h : relative? base p = some r) :
    components base <+: components p ∧ ∃ rest, rest <:+ pieces p ∧ kept rest = kept (pieces p) ∧
      r = unite (trimPieces ((dropSteps (body base).length rest).dropWhile isVoid)) := by
  unfold relative? at h
  rw [if_neg hne] at h
  by_cases hleads : leads (components base) (components p) = true
  · rw [if_pos hleads] at h
    refine ⟨List.isPrefixOf_iff_prefix.mp hleads, ?_⟩
    by_cases hopening : opening p = []
    · rw [if_pos hopening] at h
      exact ⟨pieces p, List.suffix_rfl, rfl, (Option.some.inj h).symm⟩
    · rw [if_neg hopening] at h
      exact ⟨(pieces p).tail, List.tail_suffix _, kept_tail_of_opening hopening,
        (Option.some.inj h).symm⟩
  · rw [if_neg hleads] at h
    exact absurd h (by simp)

/-- A row of pieces put together, without those at its ends that count for nothing. -/
theorem pieces_unite_trimmed {ps : List Text} (h : ∀ p ∈ ps, '/' ∉ p) {r : Text}
    (hr : r = unite (trimPieces (ps.dropWhile isVoid))) :
    kept (pieces r) = kept ps ∧ (r = [] ∨
      (∃ x xs, pieces r = x :: xs ∧ isVoid x = false) ∧ ¬EndsVoid (pieces r)) := by
  have hkept : kept (trimPieces (ps.dropWhile isVoid)) = kept ps := by
    rw [kept_trimPieces, kept_dropWhile]
  have hends := not_endsVoid_trimPieces (ps.dropWhile isVoid)
  have hleads := trimPieces_leads (ps.dropWhile isVoid)
  cases hqs : trimPieces (ps.dropWhile isVoid) with
  | nil =>
    rw [hqs] at hkept hr
    rw [hr]
    exact ⟨hkept, .inl rfl⟩
  | cons x xs =>
    rw [hqs] at hkept hr hends hleads
    have hsub : ∀ p ∈ x :: xs, '/' ∉ p := fun p hp =>
      h p ((List.dropWhile_sublist isVoid).subset (hleads.subset hp))
    have hpieces : pieces r = x :: xs := by rw [hr, pieces_unite (List.cons_ne_nil x xs) hsub]
    have hfirst : isVoid x = false := by
      obtain ⟨tail, htail⟩ := hleads
      have hhead := List.head?_dropWhile_not isVoid ps
      rw [← htail] at hhead
      simpa using hhead
    rw [hpieces]
    exact ⟨hkept, .inr ⟨⟨x, xs, rfl, hfirst⟩, hends⟩⟩

/-- A relative path has the pieces that the steps of its base leave, and unless it is empty the
first and the last of its pieces count. -/
theorem kept_relative {base p r : Text} (hne : components base ≠ [])
    (h : relative? base p = some r) :
    kept (pieces r) = (kept (pieces p)).drop (body base).length ∧ (r = [] ∨
      (∃ x xs, pieces r = x :: xs ∧ isVoid x = false) ∧ ¬EndsVoid (pieces r)) := by
  obtain ⟨-, rest, hsuffix, hrest, hr⟩ := exists_of_relative hne h
  have hslash : ∀ x ∈ dropSteps (body base).length rest, '/' ∉ x := fun x hx =>
    Text.not_mem_of_mem_splitOn (hsuffix.subset ((dropSteps_suffix _ _).subset hx))
  rw [← hrest, ← kept_dropSteps]
  exact pieces_unite_trimmed hslash hr

/-- A relative path has no other characters than the path, but slashes. -/
theorem mem_of_relative {base p r : Text} (hne : components base ≠ [])
    (h : relative? base p = some r) {c : Char} (hc : c ∈ r) : c ∈ p ∨ c = '/' := by
  obtain ⟨-, rest, hsuffix, -, rfl⟩ := exists_of_relative hne h
  have hunite {qs : List Text} (hc : c ∈ unite qs) : (∃ q ∈ qs, c ∈ q) ∨ c = '/' := by
    induction qs with
    | nil => exact absurd hc (by simp [unite, Text.join])
    | cons q qs ih =>
      cases qs with
      | nil =>
        rw [unite, Text.join_singleton] at hc
        exact .inl ⟨q, List.mem_cons_self, hc⟩
      | cons u us =>
        rw [unite, Text.join_cons_cons, List.singleton_append] at hc
        rcases List.mem_append.mp hc with hc | hc
        · exact .inl ⟨q, List.mem_cons_self, hc⟩
        · rcases List.mem_cons.mp hc with hc | hc
          · exact .inr hc
          · obtain ⟨x, hx, hcx⟩ | hslash := ih hc
            · exact .inl ⟨x, List.mem_cons_of_mem _ hx, hcx⟩
            · exact .inr hslash
  obtain ⟨x, hx, hcx⟩ | hslash := hunite hc
  · have hmem := hsuffix.subset ((dropSteps_suffix _ _).subset
      ((List.dropWhile_sublist isVoid).subset ((trimPieces_leads _).subset hx)))
    exact .inl (Text.mem_of_mem_splitOn hmem hcx)
  · exact .inr hslash

/-! ## Directories with a slash behind them -/

/-- The directory with a slash behind it. -/
def closed (base : Text) : Text := if base.getLast? = some '/' then base else base ++ ['/']

theorem mem_closed {base : Text} {c : Char} (h : c ∈ closed base) : c ∈ base ∨ c = '/' := by
  unfold closed at h
  split_ifs at h
  · exact .inl h
  · simpa using h

theorem components_ne_nil {p : Text} (h : p ≠ []) : components p ≠ [] := by
  intro hnil
  obtain ⟨hopening, hbody⟩ := List.append_eq_nil_iff.mp hnil
  have hvoid : ∀ x ∈ pieces p, isVoid x = true := by
    have hkept : kept (pieces p) = [] := List.map_eq_nil_iff.mp hbody
    simpa [kept] using hkept
  obtain ⟨c, t, rfl⟩ := List.exists_cons_of_ne_nil h
  unfold opening at hopening
  split_ifs at hopening with habsolute hdot
  have hc : c ≠ '/' := by simpa [isAbsolute] using habsolute
  obtain ⟨x, xs, hx⟩ : ∃ x xs, pieces (c :: t) = (c :: x) :: xs := by
    rw [pieces, Text.splitOn, if_neg hc]
    cases hs : Text.splitOn '/' t with
    | nil => exact absurd hs (Text.splitOn_ne_nil '/' t)
    | cons x xs => exact ⟨x, xs, rfl⟩
  have hfirst := hvoid (c :: x) (by rw [hx]; exact List.mem_cons_self)
  refine hdot ?_
  rw [hx, List.head?_cons]
  simpa [isVoid] using hfirst

/-- The directory without its slash has the same steps. -/
theorem exists_closed_eq (base : Text) : ∃ e, closed base = e ++ ['/'] ∧
    kept (pieces e) = kept (pieces base) ∧ (pieces e).head? = (pieces base).head? ∧
    (base ≠ [] → (e ++ ['/']).head? = base.head?) := by
  unfold closed
  split_ifs with hslash
  · obtain ⟨e, rfl⟩ := List.getLast?_eq_some_iff.mp hslash
    refine ⟨e, rfl, ?_, ?_, fun _ => rfl⟩
    · rw [kept_pieces_append]
      simp [kept, pieces, Text.splitOn, isVoid]
    · rw [pieces, pieces, Text.splitOn_append_sep, List.head?_append_of_ne_nil _
        (Text.splitOn_ne_nil '/' e)]
  · exact ⟨base, rfl, rfl, rfl, fun hne => List.head?_append_of_ne_nil _ hne⟩

/-- What stands behind the slash does not change how the path opens. -/
theorem opening_closed_append {base : Text} (hne : base ≠ []) (r : Text) :
    opening (closed base ++ r) = opening base := by
  obtain ⟨e, he, -, hhead, hfirst⟩ := exists_closed_eq base
  rw [he, List.append_assoc, List.singleton_append]
  refine opening_congr ?_ ?_
  · rw [← hfirst hne]
    cases e <;> rfl
  · rw [← hhead, pieces, Text.splitOn_append_sep,
      List.head?_append_of_ne_nil _ (Text.splitOn_ne_nil '/' e), pieces]

theorem kept_closed_append (base r : Text) :
    kept (pieces (closed base ++ r)) = kept (pieces base) ++ kept (pieces r) := by
  obtain ⟨e, he, hkept, -, -⟩ := exists_closed_eq base
  rw [he, List.append_assoc, List.singleton_append, kept_pieces_append, hkept]

/-- The slash adds no step. -/
theorem components_closed {base : Text} (hne : base ≠ []) :
    components (closed base) = components base := by
  have hopening := opening_closed_append hne []
  have hkept := kept_closed_append base []
  have hnone : kept (pieces []) = [] := rfl
  rw [List.append_nil] at hopening hkept
  rw [hnone, List.append_nil] at hkept
  rw [components, hopening, body_eq, hkept, ← body_eq, components]

/-- A base, and behind its slash the relative path, are the steps of the whole path. -/
theorem components_closed_append {base p r : Text} (hne : base ≠ [])
    (h : relative? base p = some r) : components (closed base ++ r) = components p := by
  have hcomponents := components_ne_nil hne
  obtain ⟨hleads, -⟩ := exists_of_relative hcomponents h
  obtain ⟨hopening, hbody⟩ := opening_of_leads hcomponents hleads
  obtain ⟨hkept, -⟩ := kept_relative hcomponents h
  have hbodies : body (closed base ++ r) = body p := by
    rw [body_eq, kept_closed_append, hkept, List.map_append, List.map_drop, ← body_eq, ← body_eq]
    exact List.prefix_iff_eq_append.mp hbody
  rw [components, opening_closed_append hne, hopening, hbodies, components]

/-- What stands behind the last slash. -/
theorem exists_last_piece {p : Text} (h : '/' ∈ p) :
    ∃ init last, p = init ++ '/' :: last ∧ '/' ∉ last := by
  obtain ⟨as, bs, hsplit, hnot⟩ := List.eq_append_cons_of_mem (List.mem_reverse.mpr h)
  refine ⟨bs.reverse, as.reverse, ?_, by simpa using hnot⟩
  rw [← List.reverse_reverse p, hsplit]
  simp

/-- Without a slash behind the directory, the last piece of it and the first of what follows are one
piece. So the steps are others than with the slash. -/
theorem components_append_ne {base r x : Text} {xs : List Text} (hslash : '/' ∈ base)
    (hlast : base.getLast? ≠ some '/') (hr : pieces r = x :: xs) (hx : isVoid x = false) :
    components (base ++ r) ≠ components (base ++ '/' :: r) := by
  obtain ⟨init, last, rfl, hpiece⟩ := exists_last_piece hslash
  have hempty : last ≠ [] := by
    rintro rfl
    exact hlast (by simp)
  intro hsteps
  have hkept := (sameWay_of_components hsteps).2
  have hone : kept (pieces (last ++ r)) = (last ++ x) :: kept xs := by
    have hvoid : isVoid (last ++ x) = false := by
      obtain ⟨c, l, rfl⟩ := List.exists_cons_of_ne_nil hempty
      cases x with
      | nil => exact absurd hx (by decide)
      | cons d x => simp [isVoid]
    rw [pieces, Text.splitOn_append_of_not_mem hpiece, ← pieces, hr, List.modifyHead_cons,
      kept_cons_of_not_void hvoid]
  have htwo : kept (pieces (last ++ '/' :: r)) = kept [last] ++ x :: kept xs := by
    rw [kept_pieces_append, pieces, Text.splitOn_of_not_mem hpiece, hr, kept_cons_of_not_void hx]
  rw [List.append_assoc, List.append_assoc, List.cons_append, List.cons_append, kept_pieces_append,
    kept_pieces_append, hone, htwo] at hkept
  have hpair := List.append_cancel_left hkept
  cases hvoid : isVoid last with
  | true =>
    rw [kept_cons_of_void hvoid] at hpair
    have hnone : last ++ x = [] ++ x := (List.cons.inj hpair).1
    exact hempty (List.append_cancel_right hnone)
  | false =>
    rw [kept_cons_of_not_void hvoid] at hpair
    have hlength := congrArg List.length hpair
    simp [kept] at hlength

/-- A directory with a relative path right behind it has the steps of the whole path only if it ends
with a slash, or there is nothing behind it. -/
theorem components_append_iff {base p r : Text} (hslash : '/' ∈ base)
    (h : relative? base p = some r) :
    components (base ++ r) = components p ↔ base.getLast? = some '/' ∨ r = [] := by
  have hne : base ≠ [] := List.ne_nil_of_mem hslash
  have hclosed := components_closed_append hne h
  constructor
  · intro hsteps
    by_contra! hnot
    obtain ⟨-, hempty | ⟨⟨x, xs, hr, hx⟩, -⟩⟩ := kept_relative (components_ne_nil hne) h
    · exact hnot.2 hempty
    · refine components_append_ne hslash hnot.1 hr hx ?_
      rw [hsteps, ← hclosed, closed, if_neg hnot.1, List.append_assoc, List.singleton_append]
  · rintro (hlast | rfl)
    · rwa [closed, if_pos hlast] at hclosed
    · rw [List.append_nil, components_closed hne] at hclosed
      rw [List.append_nil, hclosed]

end Path

end Fanout
