import Fanout.Proofs.Inside
import Fanout.Proofs.Ordering

/-!
# The kinds of a search

A search asks the type of everything it comes across before it looks at the kind that is wanted. So
the three kinds come across the same paths and are refused for the same ones, and the matches of one
kind are those of a search for all of the one type, in the same order and shown in the same way.
Only what comes behind may tell the kinds apart: a kind of which there is nothing, and a match that
cannot be shown.

* `NodeKind.takes`: what a path leads to is of the kind.
* `Finds`: what a search comes across, whichever kind is wanted.
* `Finds.expandNodes_eq`: what becomes of that for a kind.
* `expandNodes_of_closed`: a directory that may not be read refuses every kind alike.
* `expandNodes_kinds`: the files and the directories part the nodes of both kinds.
-/

namespace Fanout

/-! ## What a path leads to -/

/-- The path leads to a node of the kind. -/
def NodeKind.takes (kind : NodeKind) (t : FileTree) (p : Text) : Bool :=
  match t.metadata p with
  | .ok k => kind.accepts k
  | .error _ => false

theorem NodeKind.takes_of_metadata {t : FileTree} {p : Text} {k : NodeType}
    (h : t.metadata p = .ok k) (kind : NodeKind) : kind.takes t p = kind.accepts k := by
  simp [takes, h]

/-- What is taken for all is a file or a directory. -/
theorem NodeKind.metadata_of_takes_all {t : FileTree} {p : Text} (h : NodeKind.all.takes t p = true) :
    t.metadata p = .ok .file ∨ t.metadata p = .ok .dir := by
  unfold takes at h
  cases hk : t.metadata p with
  | error f => simp [hk] at h
  | ok k => cases k <;> simp_all [accepts]

/-- Every kind is part of all. -/
theorem NodeKind.takes_all_of_takes {kind : NodeKind} {t : FileTree} {p : Text}
    (h : kind.takes t p = true) : NodeKind.all.takes t p = true := by
  unfold takes at h ⊢
  cases hk : t.metadata p with
  | error f => simp [hk] at h
  | ok k => cases kind <;> cases k <;> simp_all [accepts]

/-- What is taken for all is taken for one of the two kinds. -/
theorem NodeKind.takes_dirs_eq_not {t : FileTree} {p : Text} (h : NodeKind.all.takes t p = true) :
    NodeKind.dirs.takes t p = !NodeKind.files.takes t p := by
  rcases metadata_of_takes_all h with hk | hk <;> simp [takes, hk, accepts]

/-! ## Elements with what is made of them -/

section Pairs

variable {α β ε : Type} {f : α → Except ε β}

theorem exists_pairs_of_mapM {xs : List α} {ys : List β} (h : xs.mapM f = .ok ys) :
    ∃ pairs : List (α × β), pairs.map Prod.fst = xs ∧ pairs.map Prod.snd = ys ∧
      ∀ m ∈ pairs, f m.1 = .ok m.2 := by
  have hall := forall₂_of_mapM h
  clear h
  induction hall with
  | nil => exact ⟨[], rfl, rfl, fun m hm => absurd hm List.not_mem_nil⟩
  | @cons x y xs ys hx _ ih =>
    obtain ⟨pairs, rfl, rfl, hpairs⟩ := ih
    exact ⟨(x, y) :: pairs, rfl, rfl, List.forall_mem_cons.mpr ⟨hx, hpairs⟩⟩

theorem mapM_of_pairs {pairs : List (α × β)} (h : ∀ m ∈ pairs, f m.1 = .ok m.2) :
    (pairs.map Prod.fst).mapM f = .ok (pairs.map Prod.snd) := by
  induction pairs with
  | nil => rfl
  | cons m pairs ih =>
    obtain ⟨hm, hpairs⟩ := List.forall_mem_cons.mp h
    rw [List.map_cons, List.mapM_cons, hm, ih hpairs]
    rfl

end Pairs

/-! ## What a search comes across -/

theorem selectNodes_hits {t : FileTree} {hits : List Text}
    (htyped : ∀ p ∈ hits, ∃ k, t.metadata p = .ok k) (kind : NodeKind) :
    selectNodes t kind (hits.map .hit) = .ok (hits.filter (kind.takes t)) := by
  induction hits with
  | nil => rfl
  | cons p hits ih =>
    obtain ⟨⟨k, hk⟩, hrest⟩ := List.forall_mem_cons.mp htyped
    simp only [List.map_cons, selectNodes, hk, ih hrest, List.filter_cons,
      NodeKind.takes_of_metadata hk]
    rfl

/-- Nothing is selected when a finding has no type, whichever kind is wanted. -/
theorem exists_hits_of_selectNodes {t : FileTree} {kind : NodeKind} {findings : List Glob.Finding}
    {found : List Text} (h : selectNodes t kind findings = .ok found) :
    ∃ hits : List Text, findings = hits.map .hit ∧ ∀ p ∈ hits, ∃ k, t.metadata p = .ok k := by
  induction findings generalizing found with
  | nil => exact ⟨[], rfl, fun p hp => absurd hp List.not_mem_nil⟩
  | cons x findings ih =>
    cases x with
    | unreadable p => exact absurd h (by simp [selectNodes])
    | hit p =>
      rw [selectNodes] at h
      cases hk : t.metadata p with
      | error f => simp [hk] at h
      | ok k =>
        simp only [hk] at h
        obtain ⟨more, hmore, -⟩ := exists_of_bind_eq_ok h
        obtain ⟨hits, rfl, htyped⟩ := ih hmore
        exact ⟨p :: hits, rfl, List.forall_mem_cons.mpr ⟨⟨k, hk⟩, htyped⟩⟩

/-- The search may be made, and comes across these paths, each with a type. -/
structure Finds (t : FileTree) (pattern : Text) (external : Option Text) (hits : List Text) :
    Prop where
  unmixed : (Path.isAbsolute pattern && external.isSome) = false
  search : Glob.search t (searchPattern external pattern) = .ok (hits.map .hit)
  typed : ∀ p ∈ hits, ∃ k, t.metadata p = .ok k

theorem exists_of_map_eq_ok {α β ε : Type} {x : Except ε α} {g : α → β} {b : β}
    (h : x.map g = .ok b) : ∃ a, x = .ok a ∧ g a = b := by
  cases x with
  | error e => exact absurd h (by simp [Except.map])
  | ok a => exact ⟨a, rfl, Except.ok.inj h⟩

section Finds

variable {t : FileTree} {kind : NodeKind} {pattern : Text} {external : Option Text}

theorem Finds.matchesOf_eq {hits : List Text} (h : Finds t pattern external hits)
    (kind : NodeKind) : matchesOf t kind pattern external =
      if (hits.mergeSort Path.le).filter (kind.takes t) = [] then
        .error (.noMatches kind pattern external)
      else .ok ((hits.mergeSort Path.le).filter (kind.takes t)) := by
  rw [← filter_mergeSort Path.le_of_le_of_le Path.le_or_le]
  have hempty : (hits.filter (kind.takes t)).mergeSort Path.le = [] ↔
      (hits.filter (kind.takes t)).isEmpty = true := by
    rw [← List.length_eq_zero_iff, List.length_mergeSort, List.length_eq_zero_iff,
      List.isEmpty_iff]
  simp only [matchesOf, h.search, selectNodes_hits h.typed, hempty]
  rfl

/-- What becomes of the paths that a search comes across: those of the kind are shown in order. -/
theorem Finds.expandNodes_eq {hits : List Text} (h : Finds t pattern external hits)
    (kind : NodeKind) : expandNodes t kind pattern external =
      if (hits.mergeSort Path.le).filter (kind.takes t) = [] then
        .error (.noMatches kind pattern external)
      else (((hits.mergeSort Path.le).filter (kind.takes t)).mapM
        (showNode (Path.isAbsolute pattern) external)).map
          fun nodes => ⟨nodes, external.isSome && !isTainted external⟩ := by
  simp only [expandNodes, h.unmixed, h.matchesOf_eq kind, Bool.false_eq_true, if_false]
  split_ifs
  · rfl
  · cases hshown : ((hits.mergeSort Path.le).filter (kind.takes t)).mapM
      (showNode (Path.isAbsolute pattern) external) <;>
        simp [hshown, bind, Except.bind, Except.map]

/-- A search that succeeds for one kind comes across the same paths for any. -/
theorem exists_finds_of_expandNodes {x : NodeExpansion}
    (h : expandNodes t kind pattern external = .ok x) : ∃ hits, Finds t pattern external hits := by
  unfold expandNodes at h
  simp only at h
  split at h
  · exact absurd h (by simp)
  · rename_i hmixed
    obtain ⟨found, hfound, -⟩ := exists_of_bind_eq_ok h
    unfold matchesOf at hfound
    simp only at hfound
    cases hsearch : Glob.search t (searchPattern external pattern) with
    | error f => simp [hsearch] at hfound
    | ok findings =>
      simp only [hsearch] at hfound
      obtain ⟨selected, hselected, -⟩ := exists_of_bind_eq_ok hfound
      obtain ⟨hits, rfl, htyped⟩ := exists_hits_of_selectNodes hselected
      exact ⟨hits, by simpa using hmixed, hsearch, htyped⟩

/-- When the search for one kind succeeds, that for another is refused for nothing but what comes
behind the search. -/
theorem Finds.kind_of_expandNodes {hits : List Text} (h : Finds t pattern external hits)
    {f : Fault} (hf : expandNodes t kind pattern external = .error f) :
    f.kind = .noMatches ∨ f.kind = .path := by
  rw [h.expandNodes_eq] at hf
  split_ifs at hf
  · obtain rfl := Except.error.inj hf
    exact .inl rfl
  · cases hshown : ((hits.mergeSort Path.le).filter (kind.takes t)).mapM
        (showNode (Path.isAbsolute pattern) external) with
    | ok nodes => simp [hshown, Except.map] at hf
    | error e =>
      rw [hshown] at hf
      obtain rfl : e = f := Except.error.inj hf
      obtain ⟨p, -, hp⟩ := exists_of_mapM_eq_error hshown
      exact .inr (kind_showNode hp)

end Finds

/-- Where a search with wildcards in its first component starts from a directory that may not be
read, that is what it is refused for. -/
theorem expandNodes_of_closed {t : FileTree} {pattern : Text} {external : Option Text} {text : Text}
    (htext : searchPattern external pattern = text)
    (hunmixed : (Path.isAbsolute pattern && external.isSome) = false)
    {whole p : Glob.Pattern} {ps : List Glob.Pattern}
    (hwhole : Glob.Pattern.ofText text = .ok whole)
    (hparts : (Glob.componentTexts text).mapM Glob.Pattern.ofText = .ok (p :: ps))
    (hwild : p.literal? = none) {l : Location} (hl : t.resolve (Glob.origin text) true = .ok l)
    (hdir : t.nodeAt? l = some .dir) (hclosed : l ∈ t.closed) (kind : NodeKind) :
    expandNodes t kind pattern external =
      .error (.unreadableDirectory (Glob.origin text)) := by
  have hlist : t.list (Glob.origin text) = .error (.system .denied) := by
    simp [FileTree.list, hl, FileTree.isDirAt, hdir, hclosed, bind, Except.bind]
  have hisDir : t.isDir (Glob.origin text) = true :=
    FileTree.isDir_iff.mpr (FileTree.metadata_eq_ok.mpr ⟨l, .dir, hl, hdir, rfl⟩)
  have hagenda : Glob.agenda t (p :: ps) (Glob.Spot.at t (Glob.origin text)) =
      [.unreadable (Glob.origin text)] := by
    simp [Glob.agenda, hwild, Glob.Spot.at, hisDir, hlist]
  have hsearch : Glob.search t text = .ok [.unreadable (Glob.origin text)] := by
    rw [Glob.search, hwhole, hparts]
    simp only [bind, Except.bind, hagenda]
    rfl
  simp [expandNodes, hunmixed, matchesOf, htext, hsearch, selectNodes, bind, Except.bind]

example : expandNodes { FileTree.empty with closed := [[]] } .files ['*'] none =
    .error (.unreadableDirectory ['.']) := by cbv

/-! ## The parts of a search -/

/-- Out of matches with their terms, the terms of the kind. -/
def NodeKind.part (kind : NodeKind) (t : FileTree) (shown : List (Text × Text)) : List Text :=
  (shown.filter (kind.takes t ·.1)).map Prod.snd

/-- Selecting before or after the terms are made comes to the same. -/
theorem mapM_showNode_part {t : FileTree} {absolute : Bool} {external : Option Text}
    {shown : List (Text × Text)} (h : ∀ m ∈ shown, showNode absolute external m.1 = .ok m.2)
    (kind : NodeKind) :
    ((shown.map Prod.fst).filter (kind.takes t)).mapM (showNode absolute external) =
      .ok (kind.part t shown) := by
  rw [List.filter_map]
  exact mapM_of_pairs fun m hm => h m (List.mem_of_mem_filter hm)

/-- The group absorbs the external path when that has no wildcard but escaped ones. -/
theorem absorbs_iff {external : Option Text} : (external.isSome && !isTainted external) = true ↔
    ∃ ext, external = some ext ∧
      ∀ n, (Text.charAt? n ext).any Glob.isWildcard = true → ext.isEscaped n = true := by
  cases external with
  | none => simp
  | some ext =>
    have hnone : Glob.hasWildcards ext = false ↔
        ∀ n, (Text.charAt? n ext).any Glob.isWildcard = true → ext.isEscaped n = true := by
      rw [← Bool.not_eq_true, Glob.hasWildcards_iff]
      simp
    simpa [isTainted] using hnone

/-- The search for all gives the terms of the matches in the order of their paths, and the search for
the files or for the directories gives those of the matches of that type, in the same order, or
finds nothing. No search is refused where one for another kind succeeds, but for that and for a match
that cannot be shown. -/
theorem expandNodes_kinds (t : FileTree) (pattern : Text) (external : Option Text) :
    (∀ x, expandNodes t .all pattern external = .ok x →
      ∃ (hits : List Text) (shown : List (Text × Text)),
        Glob.search t (searchPattern external pattern) = .ok (hits.map .hit) ∧
        shown.map Prod.fst = (hits.filter (NodeKind.all.takes t)).mergeSort Path.le ∧
        shown.Pairwise (fun m n => Path.le m.1 n.1 = true) ∧
        (∀ m ∈ shown, showNode (Path.isAbsolute pattern) external m.1 = .ok m.2 ∧
          NodeKind.dirs.takes t m.1 = !NodeKind.files.takes t m.1) ∧
        x.nodes = shown.map Prod.snd ∧
        (∀ kind, expandNodes t kind pattern external =
          if kind.part t shown = [] then .error (.noMatches kind pattern external)
          else .ok ⟨kind.part t shown, x.absorbed⟩) ∧
        (x.absorbed = true ↔ ∃ ext, external = some ext ∧
          ∀ n, (Text.charAt? n ext).any Glob.isWildcard = true → ext.isEscaped n = true)) ∧
    ∀ kind other x f, expandNodes t kind pattern external = .ok x →
      expandNodes t other pattern external = .error f → f.kind = .noMatches ∨ f.kind = .path := by
  refine ⟨fun x hx => ?_, fun kind other x f hx hf => ?_⟩
  · obtain ⟨hits, hfinds⟩ := exists_finds_of_expandNodes hx
    rw [hfinds.expandNodes_eq] at hx
    split_ifs at hx with hsome
    obtain ⟨nodes, hnodes, rfl⟩ := exists_of_map_eq_ok hx
    obtain ⟨shown, hfst, rfl, hshown⟩ := exists_pairs_of_mapM hnodes
    have hsort := filter_mergeSort Path.le_of_le_of_le Path.le_or_le (NodeKind.all.takes t) hits
    have hsorted : (shown.map Prod.fst).Pairwise (Path.le · ·) := by
      rw [hfst, ← hsort]
      exact List.pairwise_mergeSort Path.le_of_le_of_le Path.le_or_le _
    have htakes : ∀ m ∈ shown, NodeKind.all.takes t m.1 = true := fun m hm =>
      List.of_mem_filter (hfst ▸ List.mem_map_of_mem hm)
    -- every kind is part of all, so its matches are found among those that are shown
    have hpart (kind : NodeKind) : (hits.mergeSort Path.le).filter (kind.takes t) =
        (shown.map Prod.fst).filter (kind.takes t) := by
      rw [hfst, List.filter_filter]
      refine List.filter_congr fun p _ => ?_
      cases hk : kind.takes t p with
      | false => rfl
      | true => rw [NodeKind.takes_all_of_takes hk, Bool.and_self]
    refine ⟨hits, shown, hfinds.search, hfst.trans hsort.symm, List.pairwise_map.mp hsorted,
      fun m hm => ⟨hshown m hm, NodeKind.takes_dirs_eq_not (htakes m hm)⟩, rfl, fun kind => ?_,
      absorbs_iff⟩
    have hempty : (shown.map Prod.fst).filter (kind.takes t) = [] ↔ kind.part t shown = [] := by
      rw [List.filter_map, NodeKind.part, List.map_eq_nil_iff, List.map_eq_nil_iff]
      rfl
    rw [hfinds.expandNodes_eq, hpart kind, mapM_showNode_part hshown]
    simp only [hempty]
    rfl
  · obtain ⟨hits, hfinds⟩ := exists_finds_of_expandNodes hx
    exact hfinds.kind_of_expandNodes hf

/-- A directory with a file and a directory, in the working directory. -/
def twoKindsTree : FileTree where
  entries := [([['d']], .dir), ([['d'], ['x']], .dir), ([['d'], ['y']], .file .empty)]
  workingDir := []

theorem expandNodes_twoKinds :
    (expandNodes twoKindsTree .all ['*'] (some ['d', '/']) = .ok ⟨[['x'], ['y']], true⟩ ∧
      ∃ shown : List (Text × Text), shown.map Prod.snd = [['x'], ['y']] ∧
        ∀ kind, expandNodes twoKindsTree kind ['*'] (some ['d', '/']) =
          if kind.part twoKindsTree shown = [] then
            .error (.noMatches kind ['*'] (some ['d', '/']))
          else .ok ⟨kind.part twoKindsTree shown, true⟩) ∧
    expandNodes oneFileTree .files ['*'] (some ['a', '/']) = .ok ⟨[['x']], true⟩ ∧
      ∃ f, expandNodes oneFileTree .dirs ['*'] (some ['a', '/']) = .error f ∧
        (f.kind = .noMatches ∨ f.kind = .path) := by
  have hall : expandNodes twoKindsTree .all ['*'] (some ['d', '/']) =
      .ok ⟨[['x'], ['y']], true⟩ := by cbv
  have hfiles : expandNodes oneFileTree .files ['*'] (some ['a', '/']) = .ok ⟨[['x']], true⟩ := by
    cbv
  have hdirs : expandNodes oneFileTree .dirs ['*'] (some ['a', '/']) =
      .error (.noMatches .dirs ['*'] (some ['a', '/'])) := by cbv
  obtain ⟨-, shown, -, -, -, -, hnodes, hkinds, -⟩ :=
    (expandNodes_kinds twoKindsTree ['*'] (some ['d', '/'])).1 _ hall
  exact ⟨⟨hall, shown, hnodes.symm, hkinds⟩, hfiles, _, hdirs,
    (expandNodes_kinds oneFileTree ['*'] (some ['a', '/'])).2 .files .dirs _ _ hfiles hdirs⟩

end Fanout
