import Mathlib
import Fanout.Proofs.Inheriting

/-!
# Matches inside their directory

Behind an external path each match is shown relative to the directory that the path names, so the
match has to lie in it, step by step. A search spells the steps of the directory as the pattern has
them, but for a dot that the directory begins with, which leaves no trace in a match. So every match
lies in its directory when that begins with no dot, and otherwise only a match that itself begins
with one can.

* `Path.Underway`: a path with a step besides the dot; whatever it leads to begins with its steps.
* `leads_of_base`, `leads_of_dot`: the patterns of a directory lead to its steps.
* `leads_iff_of_hit`: the matches that lie in the directory.
* `expandNodes_iff`: when a search behind a path can show what it finds.
-/

namespace Fanout

namespace Path

/-- Behind a path, what is put there only adds steps. -/
theorem components_child {p : Text} (h : p ≠ []) (name : Text) :
    components (child p name) = components p ++ (kept (pieces name)).map step := by
  have hchild : child p name = closed p ++ name := by
    unfold child closed
    have hempty : p.isEmpty = false := by simpa using h
    by_cases hslash : p.getLast? = some '/' <;> simp [hempty, hslash]
  rw [hchild, components, opening_closed_append h, body_eq, kept_closed_append, List.map_append,
    ← List.append_assoc]
  rfl

/-- The path has a step besides the dot that it may begin with. -/
def Underway (p : Text) : Prop := p ≠ [] ∧ isCurrent p = false

theorem Underway.child {p : Text} (h : Underway p) (name : Text) : Underway (child p name) := by
  refine ⟨?_, ?_⟩
  · unfold Path.child
    split_ifs <;> simp [h.1]
  · refine decide_eq_false fun hcurrent => ?_
    rw [components_child h.1] at hcurrent
    -- its steps begin with those of the path, so these would be the dot alone
    have hle : components p <+: [Component.current] := ⟨_, hcurrent⟩
    have hne := components_ne_nil h.1
    have hsame : components p = [.current] := by
      obtain ⟨c, cs, hcs⟩ := List.exists_cons_of_ne_nil hne
      rw [hcs] at hle ⊢
      obtain ⟨rfl, hrest⟩ := List.cons_prefix_cons.mp hle
      rw [List.prefix_nil.mp hrest]
    exact absurd h.2 (by simp [isCurrent, hsame])

/-- A piece that counts is a path underway, with a step of its own. -/
theorem components_of_piece {x : Text} (hslash : '/' ∉ x) (hvoid : isVoid x = false) :
    components x = [step x] ∧ Underway x := by
  have hpieces : pieces x = [x] := Text.splitOn_of_not_mem hslash
  have habsolute : isAbsolute x = false := by
    rw [← Bool.not_eq_true, isAbsolute_iff]
    rintro ⟨t, rfl⟩
    exact hslash List.mem_cons_self
  obtain ⟨hempty, hdot⟩ : x ≠ [] ∧ x ≠ ['.'] := by simpa [isVoid] using hvoid
  have hsteps : components x = [step x] := by
    simp [components, opening, habsolute, body_eq, hpieces, kept, hvoid, hdot]
  refine ⟨hsteps, hempty, ?_⟩
  rw [isCurrent, hsteps, step]
  split_ifs <;> rfl

end Path

namespace Glob

open Fanout.Path (kept pieces components opening Underway)

/-! ## Names that are spelled -/

/-- Dots are read as they are. -/
theorem literal?_of_dots {x : Text} {p : Pattern} (h : Pattern.ofText (Pattern.escape x) = .ok p)
    (hx : isDots x = true) : p.literal? = some x := by
  have hdot (pos : Nat) (prev : Option Char) (t : Text) : readTokens pos prev ('.' :: t) =
      (readTokens (pos + 1) (some '.') t).map (.char '.' :: ·) :=
    readTokens_char (by decide) pos prev t
  have hend (pos : Nat) (prev : Option Char) : readTokens pos prev [] = .ok [] :=
    readTokens.eq_1 pos prev
  obtain rfl | rfl : x = ['.'] ∨ x = ['.', '.'] := by simpa [isDots] using hx
  · have hescape : Pattern.escape ['.'] = ['.'] := rfl
    rw [hescape, Pattern.ofText, hdot, hend] at h
    obtain rfl := Except.ok.inj h
    rfl
  · have hescape : Pattern.escape ['.', '.'] = ['.', '.'] := rfl
    rw [hescape, Pattern.ofText, hdot, hdot, hend] at h
    obtain rfl := Except.ok.inj h
    rfl

variable {t : FileTree} {s r : Spot} {ps : List Pattern}

/-- The pattern of an escaped name leads on by that name. -/
theorem Leads.exists_of_escape {p : Pattern} {x : Text} (h : Leads t (p :: ps) s r)
    (hp : Pattern.ofText (Pattern.escape x) = .ok p) :
    ∃ q, q.path = s.entryPath x ∧ Leads t ps q r := by
  obtain ⟨p', hp', hspells⟩ := Pattern.exists_spells_escape x
  obtain rfl : p = p' := Except.ok.inj (hp.symm.trans hp')
  have hnot := hspells.isRecursive
  cases h with
  | @step _ _ _ q _ name next matched rest =>
    obtain rfl := (hspells.matches_iff name).mp matched
    refine ⟨q, ?_, rest⟩
    cases next with
    | lookedUp | entry => rfl
    | dotted wild dots => exact absurd (literal?_of_dots hp dots) (by simp [wild])
  | ends recursive | deeper recursive | passed recursive =>
    rw [hnot] at recursive
    exact absurd recursive (by decide)

/-! ## Paths underway -/

theorem entryPath_of_underway (h : Underway s.path) (name : Text) :
    s.entryPath name = Path.child s.path name := by
  rw [Spot.entryPath, h.2, if_neg (by decide)]

theorem Next.path_of_underway {p : Pattern} {q : Spot} {name : Text} (h : Next t p s name q)
    (hs : Underway s.path) : q.path = Path.child s.path name := by
  cases h with
  | lookedUp | entry => exact entryPath_of_underway hs name
  | dotted => rfl

/-- A path underway leads on to paths that begin with its steps. -/
theorem leads_of_underway (h : Leads t ps s r) (hs : Underway s.path) :
    components s.path <+: components r.path := by
  have hstep {p : Pattern} {s q : Spot} {name : Text} (next : Next t p s name q)
      (hs : Underway s.path) : Underway q.path ∧ components s.path <+: components q.path := by
    rw [next.path_of_underway hs, Path.components_child hs.1]
    exact ⟨hs.child name, List.prefix_append _ _⟩
  induction h with
  | here => exact List.prefix_rfl
  | step next _ _ ih | deeper _ next _ ih =>
    obtain ⟨hq, hprefix⟩ := hstep next hs
    exact hprefix.trans (ih hq)
  | ends _ _ next => exact (hstep next hs).2
  | passed _ _ _ ih => exact ih hs

section Base

variable {base rest : List Text}
  (hps : List.Forall₂ (fun x p => Pattern.ofText x = .ok p) (base.map Pattern.escape ++ rest) ps)
  (hslash : ∀ x ∈ base, '/' ∉ x) (h : Leads t ps s r)

include hps hslash h

/-- The patterns of a directory lead from a path underway to its steps and those of the directory. -/
theorem leads_of_base (hs : Underway s.path) :
    components s.path ++ (kept base).map Path.step <+: components r.path := by
  induction base generalizing ps s with
  | nil => simpa [kept] using leads_of_underway h hs
  | cons x base ih =>
    obtain ⟨hx, hbehind⟩ := List.forall_mem_cons.mp hslash
    obtain ⟨p, ps', hp, hps', rfl⟩ := List.forall₂_cons_left_iff.mp hps
    obtain ⟨q, hq, h⟩ := h.exists_of_escape hp
    rw [entryPath_of_underway hs] at hq
    have hrest := ih hps' hbehind h (hq ▸ hs.child x)
    have hpieces : kept (x :: base) = kept (pieces x) ++ kept base := by
      rw [pieces, Text.splitOn_of_not_mem hx, ← Path.kept_append, List.singleton_append]
    rwa [hq, Path.components_child hs.1, List.append_assoc, ← List.map_append, ← hpieces] at hrest

/-- From the dot they lead to the steps of the directory, and the dot is gone, unless none of the
pieces of the directory counts. -/
theorem leads_of_dot (hs : s.path = ['.'] ∨ s.path = []) (hbase : kept base ≠ []) :
    (kept base).map Path.step <+: components r.path := by
  induction base generalizing ps s with
  | nil => exact absurd rfl hbase
  | cons x base ih =>
    obtain ⟨hx, hbehind⟩ := List.forall_mem_cons.mp hslash
    obtain ⟨p, ps', hp, hps', rfl⟩ := List.forall₂_cons_left_iff.mp hps
    obtain ⟨q, hq, h⟩ := h.exists_of_escape hp
    have hname : s.entryPath x = x := by
      obtain hs | hs := hs <;> rw [Spot.entryPath, hs]
      · rfl
      · simp [Path.isCurrent, components, Path.body, opening, Path.isAbsolute, pieces,
          Text.splitOn, Path.isVoid, Path.child]
    rw [hname] at hq
    cases hvoid : Path.isVoid x with
    | true =>
      rw [Path.kept_cons_of_void hvoid] at hbase ⊢
      have hdot : q.path = ['.'] ∨ q.path = [] := by
        rw [hq]
        simpa [Path.isVoid, or_comm] using hvoid
      exact ih hps' hbehind h hdot hbase
    | false =>
      -- the first step of the directory stands for itself
      obtain ⟨hsteps, hunderway⟩ := Path.components_of_piece hx hvoid
      have hrest := leads_of_base hps' hbehind h (hq ▸ hunderway)
      rw [hq, hsteps] at hrest
      rw [Path.kept_cons_of_not_void hvoid, List.map_cons]
      exact hrest

end Base

/-! ## Matches -/

theorem dropWildcardEscapes_ne_nil {ext : Text} (h : ext ≠ []) : dropWildcardEscapes ext ≠ [] := by
  fun_cases dropWildcardEscapes ext with
  | case1 | case2 | case3 => simp
  | case4 => exact absurd rfl h

/-- The directory without the slash that the pattern is put behind. -/
theorem exists_joinExternal {base : Text} (hne : base ≠ []) (pattern : Text) :
    ∃ e, joinExternal (Pattern.escape base) pattern = Pattern.escape e ++ '/' :: pattern ∧
      kept (pieces e) = kept (pieces base) ∧
      Path.isAbsolute (Pattern.escape e ++ '/' :: pattern) = Path.isAbsolute base ∧
      (Path.isAbsolute base = false → e ≠ [] ∧ Path.isAbsolute e = false) := by
  unfold joinExternal
  split_ifs with hslash
  · have hlast : base.getLast? = some '/' := by
      rw [← getLast?_escape]
      simpa using (Bool.and_eq_true_iff.mp hslash).1
    obtain ⟨e, rfl⟩ := List.getLast?_eq_some_iff.mp hlast
    have hkept : kept (pieces e) = kept (pieces (e ++ ['/'])) := by
      rw [Path.kept_pieces_append]
      simp [kept, pieces, Text.splitOn, Path.isVoid]
    have hjoin : Pattern.escape (e ++ ['/']) ++ pattern = Pattern.escape e ++ '/' :: pattern := by
      rw [Pattern.escape_append, List.append_assoc]
      rfl
    cases e with
    | nil => exact ⟨[], hjoin, hkept, rfl, fun h => absurd h (by decide)⟩
    | cons c u =>
      have hnil := List.cons_ne_nil c u
      exact ⟨c :: u, hjoin, hkept, isAbsolute_escape hnil _, fun h => ⟨hnil, h⟩⟩
  · exact ⟨base, rfl, rfl, isAbsolute_escape hne _, fun h => ⟨hne, h⟩⟩

section Hit

variable {base pattern : Text} {findings : List Finding} {p : Text} (ht : t.Named)
  (hne : base ≠ [])
  (hsearch : search t (joinExternal (Pattern.escape base) pattern) = .ok findings)
  (hp : .hit p ∈ findings)

include ht hne hsearch hp

/-- A directory at the root leads each match. -/
theorem prefix_of_hit_absolute (habsolute : Path.isAbsolute base = true) :
    components base <+: components p := by
  obtain ⟨e, hjoin, hkept, hroot, -⟩ := exists_joinExternal hne pattern
  rw [hjoin] at hsearch
  obtain ⟨ps, q, hps, hleads, rfl, -⟩ := leads_of_hit ht hsearch hp
  obtain ⟨dirs, htexts, hdirs, hmem⟩ := componentTexts_closed e pattern
  rw [htexts] at hps
  rw [origin, hroot, habsolute, if_pos rfl] at hleads
  have hslash : ∀ x ∈ dirs, '/' ∉ x := fun x hx => Text.not_mem_of_mem_splitOn (hmem x hx)
  have hunderway : Underway (Spot.at t ['/']).path := ⟨List.cons_ne_nil _ _, rfl⟩
  have hprefix := leads_of_base (forall₂_of_mapM hps) hslash hleads hunderway
  have hstart : components (Spot.at t ['/']).path = opening base := by
    rw [Path.opening_eq_root_iff.mpr habsolute]
    rfl
  rwa [hstart, hdirs, hkept, ← Path.body_eq] at hprefix

/-- The steps of a relative directory lead each match, but for the dot that it may begin with. -/
theorem prefix_of_hit_relative (habsolute : Path.isAbsolute base = false)
    (hbody : Path.body base ≠ []) : Path.body base <+: components p := by
  obtain ⟨e, hjoin, hkept, hroot, hrelative⟩ := exists_joinExternal hne pattern
  obtain ⟨he, habsolute'⟩ := hrelative habsolute
  rw [hjoin] at hsearch
  obtain ⟨ps, q, hps, hleads, rfl, -⟩ := leads_of_hit ht hsearch hp
  rw [componentTexts_relative he habsolute'] at hps
  rw [origin, hroot, habsolute, if_neg (by decide)] at hleads
  have hslash : ∀ x ∈ pieces e, '/' ∉ x := fun x hx => Text.not_mem_of_mem_splitOn hx
  rw [Path.body_eq, ← hkept] at hbody ⊢
  exact leads_of_dot (forall₂_of_mapM hps) hslash hleads (.inl rfl) (by simpa using hbody)

/-- A match lies in its directory unless the directory begins with a dot and the match does not. -/
theorem leads_iff_of_hit : Path.leads (components base) (components p) = true ↔
    (opening base = [.current] → opening p = [.current]) := by
  have hopens := Path.opening_of_leads (b := base) (p := p) (Path.components_ne_nil hne)
  rw [Path.leads, List.isPrefixOf_iff_prefix]
  cases habsolute : Path.isAbsolute base with
  | true =>
    have hroot := Path.opening_eq_root_iff.mpr habsolute
    exact ⟨fun _ hdot => absurd hdot (by simp [hroot]),
      fun _ => prefix_of_hit_absolute ht hne hsearch hp habsolute⟩
  | false =>
    refine ⟨fun hleads hdot => (hopens hleads).1 ▸ hdot, fun hdots => ?_⟩
    by_cases hbody : Path.body base = []
    · -- the directory is a dot, and the match begins with it
      obtain ⟨c, hc, hroot | hdot⟩ : ∃ c, opening base = [c] ∧ (c = .root ∨ c = .current) :=
        (Path.opening_cases base).resolve_left fun hnone =>
          Path.components_ne_nil hne (by rw [components, hnone, hbody]; rfl)
      · rw [hroot, Path.opening_eq_root_iff, habsolute] at hc
        exact absurd hc (by decide)
      · rw [hdot] at hc
        rw [components, components, hc, hbody, hdots hc]
        exact List.prefix_append _ _
    · have hprefix := prefix_of_hit_relative ht hne hsearch hp habsolute hbody
      -- the match begins with a step of the directory, so neither at the root nor with a dot
      have hnone : opening p = [] := by
        refine (Path.opening_cases p).resolve_right ?_
        rintro ⟨c, hc, hkind⟩
        obtain ⟨b, bs, hbs⟩ := List.exists_cons_of_ne_nil hbody
        rw [components, hc, hbs] at hprefix
        obtain ⟨rfl, -⟩ := List.cons_prefix_cons.mp hprefix
        exact Path.not_opening_of_mem_body (p := base) (by rw [hbs]; simp) hkind
      have hbare : opening base = [] := by
        refine (Path.opening_cases base).resolve_right ?_
        rintro ⟨c, hc, rfl | rfl⟩
        · rw [Path.opening_eq_root_iff, habsolute] at hc
          exact absurd hc (by decide)
        · exact absurd (hdots hc) (by simp [hnone])
      rwa [components, hbare]

end Hit

end Glob

/-! ## What is shown -/

/-- All can be made when every one can. -/
theorem exists_mapM_iff {α β ε : Type} {f : α → Except ε β} {xs : List α} :
    (∃ ys, xs.mapM f = .ok ys) ↔ ∀ x ∈ xs, ∃ y, f x = .ok y := by
  constructor
  · rintro ⟨ys, hys⟩
    have hall := forall₂_of_mapM hys
    clear hys
    induction hall with
    | nil => simp
    | cons hx _ ih => exact List.forall_mem_cons.mpr ⟨⟨_, hx⟩, ih⟩
  · intro h
    induction xs with
    | nil => exact ⟨[], rfl⟩
    | cons x xs ih =>
      obtain ⟨⟨y, hy⟩, hxs⟩ := List.forall_mem_cons.mp h
      obtain ⟨ys, hys⟩ := ih hxs
      exact ⟨y :: ys, by rw [List.mapM_cons, hy, hys]; rfl⟩

section Shown

variable {t : FileTree} (ht : t.Named) {kind : NodeKind} {ext pattern : Text} {found : List Text}
  (hne : ext ≠ []) (hext : Glob.hasWildcards ext = false)

include hext

/-- A match behind a path without wildcards is shown when it lies in the directory, and is a fault
otherwise. -/
theorem showNode_eq (absolute : Bool) (p : Text) : showNode absolute (some ext) p =
    match Path.relative? (Glob.dropWildcardEscapes ext) p with
    | some r => .ok r
    | none => .error (.outside p (Glob.dropWildcardEscapes ext)) := by
  cases hr : Path.relative? (Glob.dropWildcardEscapes ext) p with
  | none => simp [showNode, hext, hr]
  | some r => simp [showNode, hext, hr]

theorem exists_showNode_iff (absolute : Bool) (p : Text) :
    (∃ r, showNode absolute (some ext) p = .ok r) ↔
      Path.leads (Path.components (Glob.dropWildcardEscapes ext)) (Path.components p) = true := by
  have hnone : Path.relative? (Glob.dropWildcardEscapes ext) p = none ↔
      Path.leads (Path.components (Glob.dropWildcardEscapes ext)) (Path.components p) = false :=
    Path.relative?_eq_none_iff
  rw [showNode_eq hext]
  cases hr : Path.relative? (Glob.dropWildcardEscapes ext) p with
  | none => simp [hnone.mp hr]
  | some r =>
    rw [hr] at hnone
    have hleads : Path.leads (Path.components (Glob.dropWildcardEscapes ext)) (Path.components p) ≠
        false := fun hfalse => absurd (hnone.mpr hfalse) (by simp)
    simpa using hleads

variable (hpattern : Path.isAbsolute pattern = false)
  (hfound : matchesOf t kind pattern (some ext) = .ok found)

include ht hne hpattern hfound

omit ht hne hext in
/-- What is found is shown match by match. -/
theorem expandNodes_eq : expandNodes t kind pattern (some ext) =
    (found.mapM (showNode false (some ext))).map fun nodes => ⟨nodes, !isTainted (some ext)⟩ := by
  rw [expandNodes, hpattern, hfound]
  cases hshown : found.mapM (showNode false (some ext)) <;>
    simp [hshown, bind, Except.bind, Except.map]

omit hpattern in
/-- A match can be shown unless the path begins with a dot and the match does not. -/
theorem exists_showNode_of_match {p : Text} (hp : p ∈ found) :
    (∃ r, showNode false (some ext) p = .ok r) ↔
      (Path.opening (Glob.dropWildcardEscapes ext) = [.current] → Path.opening p = [.current]) := by
  obtain ⟨findings, hsearch, hall⟩ := mem_of_matchesOf hfound
  have hbase := Glob.dropWildcardEscapes_ne_nil hne
  rw [searchPattern, hext, if_neg (by decide)] at hsearch
  rw [exists_showNode_iff hext, Glob.leads_iff_of_hit ht hbase hsearch (hall p hp).1]

/-- A search behind a path without wildcards that finds something can show it, unless the path begins
with a dot and a match does not; then the fault names such a match. -/
theorem expandNodes_iff :
    ((∃ x, expandNodes t kind pattern (some ext) = .ok x) ↔
      (Path.opening (Glob.dropWildcardEscapes ext) = [.current] →
        ∀ p ∈ found, Path.opening p = [.current])) ∧
    ∀ f, expandNodes t kind pattern (some ext) = .error f →
      ∃ p ∈ found, Path.opening p ≠ [.current] ∧
        f = .outside p (Glob.dropWildcardEscapes ext) := by
  have hshow {p : Text} (hp : p ∈ found) := exists_showNode_of_match ht hne hext hfound hp
  rw [expandNodes_eq hpattern hfound]
  constructor
  · have hmap : (∃ x, (found.mapM (showNode false (some ext))).map (fun nodes =>
        (⟨nodes, !isTainted (some ext)⟩ : NodeExpansion)) = .ok x) ↔
          ∃ nodes, found.mapM (showNode false (some ext)) = .ok nodes := by
      cases found.mapM (showNode false (some ext)) <;> simp [Except.map]
    rw [hmap, exists_mapM_iff]
    exact ⟨fun h hdot p hp => (hshow hp).mp (h p hp) hdot,
      fun h p hp => (hshow hp).mpr fun hdot => h hdot p hp⟩
  · intro f hf
    cases hnodes : found.mapM (showNode false (some ext)) with
    | ok nodes => simp [hnodes, Except.map] at hf
    | error e =>
      rw [hnodes] at hf
      obtain rfl : e = f := Except.error.inj hf
      obtain ⟨p, hp, he⟩ := exists_of_mapM_eq_error hnodes
      refine ⟨p, hp, fun hdot => ?_, ?_⟩
      · obtain ⟨r, hr⟩ := (hshow hp).mpr fun _ => hdot
        exact absurd (hr.symm.trans he) (by simp)
      · rw [showNode_eq hext] at he
        cases hr : Path.relative? (Glob.dropWildcardEscapes ext) p with
        | none =>
          rw [hr] at he
          exact (Except.error.inj he).symm
        | some r =>
          rw [hr] at he
          exact absurd he (by simp)

end Shown

/-- A directory with a file, in the working directory. -/
def oneFileTree : FileTree where
  entries := [([['a']], .dir), ([['a'], ['x']], .file .empty)]
  workingDir := []

theorem oneFileTree_named : oneFileTree.Named := by
  simp [FileTree.Named, Path.IsName, oneFileTree]

theorem expandNodes_inside : oneFileTree.Named ∧
    matchesOf oneFileTree .files ['*'] (some ['a', '/']) = .ok ["a/x".toList] ∧
      ∃ x, expandNodes oneFileTree .files ['*'] (some ['a', '/']) = .ok x := by
  -- the search is run by equations of core functions, which stand in different parts of Mathlib
  have hfound : matchesOf oneFileTree .files ['*'] (some ['a', '/']) = .ok ["a/x".toList] := by cbv
  have hshown := (expandNodes_iff oneFileTree_named (by decide) (by decide) (by decide) hfound).1
  exact ⟨oneFileTree_named, hfound, hshown.mpr fun hdot => absurd hdot (by decide)⟩

/-- Behind a dot the same file is found and cannot be shown. -/
theorem expandNodes_outside : oneFileTree.Named ∧
    matchesOf oneFileTree .files ['*'] (some "./a/".toList) = .ok ["a/x".toList] ∧
      expandNodes oneFileTree .files ['*'] (some "./a/".toList) =
        .error (.outside "a/x".toList "./a/".toList) := by
  have hfound : matchesOf oneFileTree .files ['*'] (some "./a/".toList) = .ok ["a/x".toList] := by
    cbv
  have hfault : expandNodes oneFileTree .files ['*'] (some "./a/".toList) =
      .error (.outside "a/x".toList "./a/".toList) := by cbv
  exact ⟨oneFileTree_named, hfound, hfault⟩

end Fanout
