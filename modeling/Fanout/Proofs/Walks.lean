import Fanout.FileTree.Basic
import Fanout.Proofs.Pieces

/-!
# Where paths lead

A walk through a file tree passes over the pieces that count for nothing, as long as it is in a
directory there. So paths of which the same pieces count lead to the same node, and a piece that
counts for nothing at the end of one asks for a directory.

* `walk_congr`: the same for rows of pieces.
* `metadata_congr`: paths with the same steps name nodes of the same type.
* `isDir_of_entryIsDir`: what is a directory by its entry is one by its path.
-/

namespace Fanout

namespace Path

theorem not_endsVoid_nil : ¬EndsVoid [] := by simp [EndsVoid]

theorem endsVoid_append {ps qs : List Text} (h : qs ≠ []) :
    EndsVoid (ps ++ qs) ↔ EndsVoid qs := by
  rw [EndsVoid, List.getLast?_append_of_ne_nil _ h, EndsVoid]

theorem endsVoid_cons {p : Text} {ps : List Text} (h : ps ≠ []) :
    EndsVoid (p :: ps) ↔ EndsVoid ps := by
  rw [← List.singleton_append, endsVoid_append h]

theorem EndsVoid.of_suffix {ps qs : List Text} (h : EndsVoid qs) (hs : qs <:+ ps) :
    EndsVoid ps := by
  obtain ⟨us, rfl⟩ := hs
  refine (endsVoid_append ?_).mpr h
  rintro rfl
  exact not_endsVoid_nil h

theorem endsVoid_of_kept {ps : List Text} (h : kept ps = []) (hne : ps ≠ []) : EndsVoid ps := by
  have hvoid : ∀ q ∈ ps, isVoid q = true := by simpa [kept] using h
  exact ⟨ps.getLast hne, List.getLast?_eq_some_getLast hne, hvoid _ (List.getLast_mem hne)⟩

/-- What ends so still does with more pieces that count for nothing. -/
theorem EndsVoid.append_of_kept {ps qs : List Text} (h : EndsVoid ps) (hqs : kept qs = []) :
    EndsVoid (ps ++ qs) := by
  by_cases hnil : qs = []
  · rwa [hnil, List.append_nil]
  · exact (endsVoid_append hnil).mpr (endsVoid_of_kept hqs hnil)

/-- The first piece that counts has only pieces in front of it that do not. -/
theorem exists_of_kept_eq_cons {ps ks : List Text} {p : Text} (h : kept ps = p :: ks) :
    ∃ vs rest, ps = vs ++ p :: rest ∧ (∀ v ∈ vs, isVoid v = true) ∧ kept rest = ks := by
  obtain ⟨vs, rest, rfl, hvs, -, hrest⟩ := List.filter_eq_cons_iff.mp h
  exact ⟨vs, rest, rfl, fun v hv => by simpa using hvs v hv, hrest⟩

end Path

namespace FileTree

open Fanout.Path (isVoid kept EndsVoid)

variable {t : FileTree} {followLast : Bool}

/-- In a directory, pieces that count for nothing lead nowhere else. -/
theorem walk_voids {n : Nat} {here : Location} (hdir : t.isDirAt here = true) {vs : List Text}
    (hvs : ∀ v ∈ vs, isVoid v = true) (ps : List Text) :
    t.walk followLast n here (vs ++ ps) = t.walk followLast n here ps := by
  induction vs with
  | nil => rfl
  | cons v vs ih =>
    obtain ⟨hv, hvs⟩ := List.forall_mem_cons.mp hvs
    rw [List.cons_append, walk, hdir, if_neg (by decide), if_pos hv, ih hvs]

/-- A walk that ends with such a piece ends in a directory. -/
theorem isDirAt_of_endsVoid {n : Nat} {here l : Location} {ps : List Text}
    (h : t.walk followLast n here ps = .ok l) (hvoid : EndsVoid ps) : t.isDirAt l = true := by
  have hrest {p : Text} {rest : List Text} (hp : ¬isVoid p = true) (hvoid : EndsVoid (p :: rest)) :
      EndsVoid rest := by
    cases rest with
    | nil => exact absurd hvoid (by simpa [EndsVoid] using hp)
    | cons q qs => exact (Path.endsVoid_cons (List.cons_ne_nil q qs)).mp hvoid
  fun_induction walk t followLast n here ps with
  | case1 => exact absurd hvoid Path.not_endsVoid_nil
  | case2 | case5 | case6 | case8 | case9 => exact absurd h (by simp)
  | case3 n here p rest hdir hp ih =>
    cases rest with
    | nil =>
      rw [walk] at h
      obtain rfl := Except.ok.inj h
      simpa using hdir
    | cons q qs => exact ih h ((Path.endsVoid_cons (List.cons_ne_nil q qs)).mp hvoid)
  | case4 n here rest hdir hp ih => exact ih h (hrest hp hvoid)
  | case7 n here p rest hdir hp hdots hlong target hlink hlast =>
    have hnil : rest = [] := by simpa using (Bool.and_eq_true_iff.mp hlast).1
    exact absurd (hrest hp hvoid) (by rw [hnil]; exact Path.not_endsVoid_nil)
  | case10 here p rest hdir hp hdots hlong target hlink hlast n htarget ih =>
    exact ih h ((hrest hp hvoid).of_suffix (List.suffix_append _ _))
  | case11 n here p rest hdir hp hdots hlong e hnot he ih => exact ih h (hrest hp hvoid)

/-- Rows of which the same pieces count lead to the same node, unless one ends with a piece that
counts for nothing and the node is no directory. -/
theorem walk_congr {n : Nat} {here l : Location} {ps ps' : List Text}
    (h : t.walk true n here ps = .ok l) (hkept : kept ps = kept ps')
    (hend : EndsVoid ps' → t.isDirAt l = true) : t.walk true n here ps' = .ok l := by
  -- the first piece that counts is reached in the same place in both rows
  have hfirst {p : Text} {rest : List Text} {here : Location} {ps' : List Text}
      (hdir : ¬(!t.isDirAt here) = true) (hp : ¬isVoid p = true)
      (hkept : kept (p :: rest) = kept ps') :
      ∃ rest', kept rest = kept rest' ∧ p :: rest' <:+ ps' ∧ ∀ n,
        t.walk true n here ps' = t.walk true n here (p :: rest') := by
    rw [Path.kept_cons_of_not_void (by simpa using hp)] at hkept
    obtain ⟨vs, rest', rfl, hvs, hrest⟩ := Path.exists_of_kept_eq_cons hkept.symm
    exact ⟨rest', hrest.symm, List.suffix_append _ _,
      fun n => walk_voids (by simpa using hdir) hvs _⟩
  fun_induction walk t true n here ps generalizing ps' with
  | case1 n here =>
    obtain rfl := Except.ok.inj h
    have hvoid : kept ps' = [] := hkept.symm
    by_cases hnil : ps' = []
    · rw [hnil, walk]
    · have hvs : ∀ v ∈ ps', isVoid v = true := by simpa [kept] using hvoid
      rw [← List.append_nil ps', walk_voids (hend (Path.endsVoid_of_kept hvoid hnil)) hvs, walk]
  | case2 | case5 | case6 | case8 | case9 => exact absurd h (by simp)
  | case7 => simp at *
  | case3 n here p rest hdir hp ih =>
    exact ih h (by rwa [Path.kept_cons_of_void hp] at hkept) hend
  | case4 n here rest hdir hp ih =>
    obtain ⟨rest', hrest, hsuffix, hwalk⟩ := hfirst hdir hp hkept
    rw [hwalk, walk, if_neg hdir, if_neg hp, if_pos rfl]
    exact ih h hrest fun hvoid =>
      hend ((hvoid.of_suffix (List.suffix_cons _ _)).of_suffix hsuffix)
  | case10 here p rest hdir hp hdots hlong target hlink hlast n htarget ih =>
    obtain ⟨rest', hrest, hsuffix, hwalk⟩ := hfirst hdir hp hkept
    rw [hwalk, walk, if_neg hdir, if_neg hp, if_neg hdots, if_neg hlong, hlink]
    simp only [Bool.not_true, Bool.and_false, Bool.false_eq_true, if_false, if_neg htarget]
    refine ih h (by rw [Path.kept_append, Path.kept_append, hrest]) fun hvoid => ?_
    by_cases hnil : rest' = []
    · rw [hnil, List.append_nil] at hvoid
      rw [hnil] at hrest
      exact isDirAt_of_endsVoid h (hvoid.append_of_kept hrest)
    · exact hend ((((Path.endsVoid_append hnil).mp hvoid).of_suffix
        (List.suffix_cons _ _)).of_suffix hsuffix)
  | case11 n here p rest hdir hp hdots hlong e hnot he ih =>
    obtain ⟨rest', hrest, hsuffix, hwalk⟩ := hfirst hdir hp hkept
    rw [hwalk, walk, if_neg hdir, if_neg hp, if_neg hdots, if_neg hlong, he]
    cases e with
    | link target => exact absurd rfl (hnot target)
    | _ =>
      exact ih h hrest fun hvoid =>
        hend ((hvoid.of_suffix (List.suffix_cons _ _)).of_suffix hsuffix)

/-- A name leads to what stands under it, unless that is a link. -/
theorem walk_name {n : Nat} {here : Location} {p : Text} {e : Entry} (hdir : t.isDirAt here = true)
    (hcounts : Path.isVoid p = false) (hup : p ≠ ['.', '.']) (hshort : Text.byteLength p ≤ maxName)
    (hnode : t.nodeAt? (here ++ [p]) = some e) (hlink : ∀ target, e ≠ .link target) :
    t.walk followLast n here [p] = .ok (here ++ [p]) := by
  rw [walk, if_neg (by simp [hdir]), if_neg (by simp [hcounts]), if_neg hup, if_neg (by omega),
    hnode]
  cases e with
  | link target => exact absurd rfl (hlink target)
  | _ => simp [walk]

/-! ## Paths -/

/-- A path leads somewhere when it has no NUL character, is not empty and not too long, and a walk
leads there from its start. -/
theorem resolve_eq_ok {p : Text} {l : Location} : t.resolve p followLast = .ok l ↔
    '\x00' ∉ p ∧ p ≠ [] ∧ Text.byteLength p < maxPath ∧
      t.walk followLast maxLinks (if Path.isAbsolute p then [] else t.workingDir) (Path.pieces p) =
        .ok l := by
  unfold resolve
  generalize (if Path.isAbsolute p then [] else t.workingDir) = start
  split_ifs with hnul hempty hlong
  · simp_all
  · simp_all
  · simp only [false_iff, not_and]
    intro _ _ hshort
    omega
  · simp_all

theorem open?_of_resolve {p : Text} {l : Location} {e : Entry} (h : t.resolve p true = .ok l)
    (hopen : l ∉ t.closed) (hnode : t.nodeAt? l = some e) : t.open? p = .ok e := by
  simp [open?, node?, h, hnode, bind, Except.bind, hopen]

theorem metadata_eq_ok {p : Text} {k : NodeType} : t.metadata p = .ok k ↔
    ∃ l e, t.resolve p true = .ok l ∧ t.nodeAt? l = some e ∧ e.nodeType = k := by
  unfold metadata node?
  cases t.resolve p true with
  | error f => simp [bind, Except.bind, Except.map]
  | ok l =>
    simp only [bind, Except.bind, Except.ok.injEq]
    cases hnode : t.nodeAt? l with
    | none => simp [Except.map, hnode]
    | some e => simp [Except.map, hnode]

theorem isDir_iff {p : Text} : t.isDir p = true ↔ t.metadata p = .ok .dir := by
  unfold isDir
  cases t.metadata p with
  | error f => simp
  | ok k => simp

/-- A piece that counts keeps its characters, so a NUL in a path is one in every path with the same
steps. -/
theorem mem_of_kept {p q : Text} {c : Char} (hkept : kept (Path.pieces q) = kept (Path.pieces p))
    (hslash : c ≠ '/') (hdot : c ≠ '.') (hc : c ∈ q) : c ∈ p := by
  obtain ⟨piece, hpiece, hcp⟩ := Text.exists_mem_splitOn hc hslash
  have hcounts : isVoid piece = false := by
    by_contra hvoid
    have hcases : piece = [] ∨ piece = ['.'] := by
      simpa only [isVoid, Bool.not_eq_false, Bool.or_eq_true, List.isEmpty_iff,
        decide_eq_true_eq] using hvoid
    rcases hcases with rfl | rfl
    · exact absurd hcp List.not_mem_nil
    · exact hdot (List.mem_singleton.mp hcp)
  have hmem : piece ∈ kept (Path.pieces q) := List.mem_filter.mpr ⟨hpiece, by simpa using hcounts⟩
  rw [hkept] at hmem
  exact Text.mem_of_mem_splitOn (List.mem_filter.mp hmem).1 hcp

/-- Paths with the same steps name nodes of the same type. One that ends with a slash or a lone dot
has to name a directory. -/
theorem metadata_congr {p q : Text} {k : NodeType} (h : t.metadata p = .ok k)
    (hsteps : Path.components q = Path.components p) (hne : q ≠ [])
    (hlength : Text.byteLength q < maxPath) (hend : EndsVoid (Path.pieces q) → k = .dir) :
    t.metadata q = .ok k := by
  obtain ⟨habsolute, hkept⟩ := Path.sameWay_of_components hsteps
  obtain ⟨l, e, hresolve, hnode, hk⟩ := metadata_eq_ok.mp h
  obtain ⟨hnul, -, -, hwalk⟩ := resolve_eq_ok.mp hresolve
  refine metadata_eq_ok.mpr ⟨l, e, resolve_eq_ok.mpr ⟨fun hc => ?_, hne, hlength, ?_⟩, hnode, hk⟩
  · exact hnul (mem_of_kept hkept (by decide) (by decide) hc)
  · rw [habsolute]
    refine walk_congr hwalk hkept.symm fun hvoid => ?_
    rw [hend hvoid] at hk
    cases e <;> simp_all [Entry.nodeType, isDirAt]

/-- What ends with a slash or a lone dot is a directory. -/
theorem dir_of_endsVoid {p : Text} {k : NodeType} (h : t.metadata p = .ok k)
    (hvoid : EndsVoid (Path.pieces p)) : k = .dir := by
  obtain ⟨l, e, hresolve, hnode, rfl⟩ := metadata_eq_ok.mp h
  have hdir := isDirAt_of_endsVoid (resolve_eq_ok.mp hresolve).2.2.2 hvoid
  rw [isDirAt, hnode] at hdir
  obtain rfl : e = .dir := by simpa using hdir
  rfl

/-! ## Entries -/

/-- Where a walk does not end with a link, it makes no difference whether that is followed. -/
theorem walk_followLast {n : Nat} {here l : Location} {ps : List Text}
    (h : t.walk false n here ps = .ok l) (hnode : ∀ target, t.nodeAt? l ≠ some (.link target)) :
    t.walk true n here ps = .ok l := by
  fun_induction walk t false n here ps with
  | case1 => rw [walk, h]
  | case2 | case5 | case6 | case8 | case9 => exact absurd h (by simp)
  | case3 n here p rest hdir hp ih => rw [walk, if_neg hdir, if_pos hp, ih h]
  | case4 n here rest hdir hp ih => rw [walk, if_neg hdir, if_neg hp, if_pos rfl, ih h]
  | case7 n here p rest hdir hp hdots hlong target hlink hlast =>
    obtain rfl := Except.ok.inj h
    exact absurd hlink (hnode target)
  | case10 here p rest hdir hp hdots hlong target hlink hlast n htarget ih =>
    rw [walk, if_neg hdir, if_neg hp, if_neg hdots, if_neg hlong, hlink]
    simpa [htarget] using ih h
  | case11 n here p rest hdir hp hdots hlong e hnot he ih =>
    rw [walk, if_neg hdir, if_neg hp, if_neg hdots, if_neg hlong, he]
    cases e with
    | link target => exact absurd rfl (hnot target)
    | _ => exact ih h

/-- What is a directory by its entry is one by its path. -/
theorem isDir_of_entryIsDir {p : Text} (h : t.entryIsDir p = true) : t.isDir p = true := by
  unfold entryIsDir at h
  cases hresolve : t.resolve p false with
  | error f => simp [hresolve] at h
  | ok l =>
    obtain ⟨hnul, hne, hlength, hwalk⟩ := resolve_eq_ok.mp hresolve
    cases hnode : t.nodeAt? l with
    | none => simp [hresolve, hnode] at h
    | some e =>
      simp only [hresolve, hnode] at h
      cases e with
      | link target => exact h
      | dir =>
        have hlast := walk_followLast hwalk (by simp [hnode])
        exact isDir_iff.mpr (metadata_eq_ok.mpr
          ⟨l, .dir, resolve_eq_ok.mpr ⟨hnul, hne, hlength, hlast⟩, hnode, rfl⟩)
      | _ => exact absurd h (by simp [Entry.nodeType])

end FileTree

end Fanout
